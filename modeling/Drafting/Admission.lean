import Drafting.Constraint.Basic
import Drafting.Entity.Basic

/-! Admission of constraints.

A proposed constraint is checked against a snapshot in five stages: its entities
exist, their number fits, none comes twice, their kinds fit, and the parameters
fit. The first stage that fails says why, and names the first place where it
fails. A constraint that passes is structurally sound: what can still go wrong
when it is solved is only that a line has no length. -/
namespace Drafting

/-- What a place of a constraint asks for. -/
inductive Expected where
  | line
  | circular
  | circularOrLine
  deriving DecidableEq, Repr

namespace Expected

def text : Expected → String
  | .line => "line"
  | .circular => "circle or arc"
  | .circularOrLine => "circle, arc or line"

def admits : Expected → EntityKind → Bool
  | .line, k => k == .line
  | .circular, k => k.isCircular
  | .circularOrLine, k => k.isCircular || k == .line

end Expected

/-- Why a parameter is refused. -/
inductive ParameterFault where
  /-- A number was expected. -/
  | notNumber (found : ParameterValue)
  | notFinite (x : Float)
  | notPositive (x : Float)
  | notVector (found : ParameterValue)
  | offsetNotFinite
  | offsetZero
  | notPoint (found : ParameterValue)
  | pointNotFinite
  deriving DecidableEq

def ParameterFault.message : ParameterFault → String
  | .notNumber v => "expected a number, got " ++ v.text
  | .notFinite x => Number.prose.text x ++ " is not a finite number"
  | .notPositive x => "must be greater than zero, got " ++ Number.prose.text x
  | .notVector v => "expected a vector, got " ++ v.text
  | .offsetNotFinite => "offset is not finite"
  | .offsetZero => "offset must be non-zero"
  | .notPoint v => "expected a point, got " ++ v.text
  | .pointNotFinite => "point is not finite"

/-- Why a constraint is refused. -/
inductive AdmissionError where
  | unknownEntity (id : EntityId)
  | wrongArity (kind : ConstraintKind) (expected : Arity) (actual : Nat)
  | repeatedEntity (kind : ConstraintKind) (id : EntityId)
  | wrongEntity (kind : ConstraintKind) (id : EntityId) (position : Nat) (expected : Expected)
      (actual : EntityKind)
  | missingParameter (kind : ConstraintKind) (key : ParameterKey)
  | badParameter (kind : ConstraintKind) (key : ParameterKey) (fault : ParameterFault)
  deriving DecidableEq

namespace AdmissionError

def message : AdmissionError → String
  | .unknownEntity id => "Entity " ++ id.text ++ " does not exist in the current drawing"
  | .wrongArity kind expected actual =>
    kind.text ++ " requires " ++ expected.text ++ " entities, got " ++ toString actual
  | .repeatedEntity kind id => kind.text ++ " references entity " ++ id.text ++ " more than once"
  | .wrongEntity kind _ position expected actual =>
    kind.text ++ " expects a " ++ expected.text ++ " at position " ++ toString position ++ ", got a " ++
      actual.text
  | .missingParameter kind key => kind.text ++ " requires a " ++ key.text ++ " parameter"
  | .badParameter kind key fault => "Invalid " ++ key.text ++ " for " ++ kind.text ++ ": " ++ fault.message

/-- What to do about it. -/
def suggestion : AdmissionError → Option String
  | .unknownEntity _ => some "Refresh the entity snapshot before creating constraints"
  | .wrongArity kind expected _ => some ("Select " ++ expected.text ++ " entities for " ++ kind.text)
  | .repeatedEntity .. => some "Select distinct entities"
  | .wrongEntity _ _ position expected _ =>
    some ("Select a " ++ expected.text ++ " as entity #" ++ toString (position + 1))
  | .missingParameter _ key => some ("Enter a value for " ++ key.text)
  | .badParameter _ key _ =>
    match key with
    | .angle | .point | .offset => none
    | _ => some ("Enter a " ++ key.text ++ " greater than zero")

end AdmissionError

namespace Admission

/-! ### The stages -/

/-- The entities with their kinds, if all exist. -/
def kinds (snapshot : Snapshot) : List EntityId → Except AdmissionError (List (EntityId × EntityKind))
  | [] => .ok []
  | id :: rest =>
    match snapshot.get? id with
    | none => .error (.unknownEntity id)
    | some e => (kinds snapshot rest).map ((id, e.kind) :: ·)

/-- The first identifier that also stands earlier; `seen` stands before the list. -/
def firstRepeated? (seen : List EntityId) : List EntityId → Option EntityId
  | [] => none
  | id :: rest => if id ∈ seen then some id else firstRepeated? (seen ++ [id]) rest

/-- What each place of a constraint asks for; `none` takes any entity. A tangent pair is judged
together: behind a line comes something round. -/
def places (kind : ConstraintKind) (first : Option EntityKind) : List (Option Expected) :=
  match kind with
  | .horizontal | .vertical | .length => [some .line]
  | .radius | .diameter => [some .circular]
  | .parallel | .perpendicular | .collinear | .equalLength | .angle | .offsetDistance =>
    [some .line, some .line]
  | .concentric | .equalRadius => [some .circular, some .circular]
  | .tangent =>
    if first = some .line then [none, some .circular] else [some .circularOrLine, some .circularOrLine]
  | .midpoint => [none, some .line]
  | .symmetric => [none, none, some .line]
  | .coincident | .distance | .fix | .pattern => []

/-- The first entity, counted from `position`, that is not of the expected kind. -/
def firstMismatch? (kind : ConstraintKind) (position : Nat) :
    List (Option Expected) → List (EntityId × EntityKind) → Option AdmissionError
  | some expected :: wanted, (id, k) :: found =>
    if expected.admits k then firstMismatch? kind (position + 1) wanted found
    else some (.wrongEntity kind id position expected k)
  | none :: wanted, _ :: found => firstMismatch? kind (position + 1) wanted found
  | _, _ => none

/-- The value a kind needs: a finite number, and unless it is an angle a positive one. -/
def checkValue (kind : ConstraintKind) (parameters : Parameters) : Except AdmissionError Unit :=
  match kind.valueKey? with
  | none => .ok ()
  | some key =>
    match parameters.get? key with
    | none => .error (.missingParameter kind key)
    | some (.number x) =>
      if !x.isFinite then .error (.badParameter kind key (.notFinite x))
      else if key ≠ .angle ∧ x ≤ 0.0 then .error (.badParameter kind key (.notPositive x))
      else .ok ()
    | some found => .error (.badParameter kind key (.notNumber found))

/-- The point a kind has a place for: a pattern needs an offset, the others may go without. -/
def checkPoint (kind : ConstraintKind) (parameters : Parameters) : Except AdmissionError Unit :=
  match kind with
  | .pattern =>
    match parameters.get? .offset with
    | none => .error (.missingParameter kind .offset)
    | some (.vector v) =>
      if !v.isFinite then .error (.badParameter kind .offset .offsetNotFinite)
      else if v.norm < epsilon then .error (.badParameter kind .offset .offsetZero)
      else .ok ()
    | some found => .error (.badParameter kind .offset (.notVector found))
  | .fix | .tangent =>
    match parameters.get? .point with
    | none => .ok ()
    | some (.point p) => if p.isFinite then .ok () else .error (.badParameter kind .point .pointNotFinite)
    | some found => .error (.badParameter kind .point (.notPoint found))
  | _ => .ok ()

/-! ### The whole check -/

/-- Checks a proposed constraint against a snapshot. -/
def check (snapshot : Snapshot) (kind : ConstraintKind) (ids : List EntityId) (parameters : Parameters) :
    Except AdmissionError Unit := do
  let found ← kinds snapshot ids
  if !kind.arity.accepts ids.length then
    throw (.wrongArity kind kind.arity ids.length)
  if let some id := firstRepeated? [] ids then
    throw (.repeatedEntity kind id)
  if let some error := firstMismatch? kind 0 (places kind (found.head?.map Prod.snd)) found then
    throw error
  checkValue kind parameters
  checkPoint kind parameters

end Admission

end Drafting
