import Drafting.Table
import Drafting.Number.Extremum
import Drafting.Number.Remainder
import Drafting.Number.Text
import Drafting.Identifier.Series
import Drafting.Plane.Angle
import Drafting.Time.Timestamp
import Drafting.Json.Codec
import Drafting.Entity.Update
import Drafting.Constraint.Basic
import Drafting.Settings
import Drafting.Admission
import Drafting.Suggestion
import Drafting.Solving.Pass
import Drafting.Session.Run
import Drafting.Document.Constraint
import Drafting.Document.Settings
import Drafting.Document.Solution
import Drafting.Proofs.Number.Equality
import Drafting.Proofs.Number.Order
import Drafting.Proofs.Number.Finite
import Drafting.Proofs.Identifier.Series
import Drafting.Proofs.Entity.Twin
import Drafting.Proofs.Entity.Numeric
import Drafting.Proofs.Entity.Shape
import Drafting.Proofs.Entity.Finite
import Drafting.Proofs.Solving.Lookup
import Drafting.Proofs.Solving.Step
import Drafting.Proofs.Solving.Attempt
import Drafting.Proofs.Solving.Order
import Drafting.Proofs.Solving.Pass
import Drafting.Proofs.Solving.Levels
import Drafting.Proofs.Solving.Rollback
import Drafting.Proofs.Solving.Replay
import Drafting.Proofs.Solving.Verdict
import Drafting.Proofs.Solving.Undermined
import Drafting.Proofs.Solving.Structural
import Drafting.Proofs.Solving.Radius
import Drafting.Proofs.Solving.Rest
import Drafting.Proofs.Solving.Independence
import Drafting.Proofs.Solving.Finite
import Drafting.Proofs.Session.Copy
import Drafting.Proofs.Session.Freedom
import Drafting.Proofs.Session.Rest
import Drafting.Proofs.Session.Soundness
import Drafting.Proofs.Session.Change
import Drafting.Proofs.Session.Identity
import Drafting.Proofs.Session.WriteBack
import Drafting.Proofs.Session.Reaction
import Drafting.Proofs.Session.Notification
import Drafting.Proofs.Session.Finite
import Drafting.Proofs.Solving.Renaming
import Drafting.Proofs.Solving.Anonymity
import Drafting.Proofs.Session.Connection
import Drafting.Proofs.Identifier.Text
import Drafting.Proofs.Identifier.Family
import Drafting.Proofs.Json.Codec
import Drafting.Proofs.Document.Geometry
import Drafting.Proofs.Document.Solution
import Drafting.Proofs.Number.Symmetry
import Drafting.Proofs.Number.Congruence
import Drafting.Proofs.Number.Extremum
import Drafting.Proofs.Solving.Duplicates
import Drafting.Proofs.Solving.Redundancy
import Drafting.Proofs.Admission.Refusal
import Drafting.Proofs.Solving.Anchor
import Drafting.Proofs.Session.Anchor
import Drafting.Proofs.Solving.Progress
import Drafting.Proofs.Solving.Bound
import Drafting.Proofs.Entity.Patch
import Drafting.Proofs.Solving.Correctable
import Drafting.Proofs.Solving.Representative
import Drafting.Proofs.Solving.Summary
import Drafting.Proofs.Number.Difference
import Drafting.Proofs.Number.Rounding
import Drafting.Proofs.Settings
import Drafting.Proofs.Number.Root
import Drafting.Proofs.Solving.Copying
import Drafting.Proofs.Solving.Levelling
import Drafting.Proofs.Document.Settings
import Drafting.Proofs.Json.Token
import Drafting.Proofs.Json.Reader
import Drafting.Proofs.Json.Text
import Drafting.Proofs.Document.Constraint
import Drafting.Proofs.Document.Text
import Drafting.Proofs.Number.Precision
import Drafting.Proofs.Json.Numeral
import Drafting.Proofs.Json.Grammar
