import Intake.Entries
import Intake.Double.Arithmetic
import Intake.Double.Bits
import Intake.Double.Layout
import Intake.Utf8
import Intake.Numeral
import Intake.Json.Basic
import Intake.Json.Reader
import Intake.Unicode.Alphabetic
import Intake.Unicode.Numeric
import Intake.Unicode.Unprintable
import Intake.Json.Short
import Intake.Quoted
import Intake.Vocabulary
import Intake.Declaration.Fault
import Intake.Rejection.Basic
import Intake.Rejection.Report
import Intake.Bounds
import Intake.Coercion
import Intake.FieldPath
import Intake.Pattern.CharSet
import Intake.Pattern.Regex
import Intake.Pattern.Flags
import Intake.Pattern.Class
import Intake.Pattern.Group
import Intake.Pattern.Repetition
import Intake.Pattern.Reader
import Intake.Definition
import Intake.Declaration
import Intake.Document
import Intake.Schema
import Intake.Schema.Source
import Intake.Validator
import Intake.Proofs.Cleaning
import Intake.Proofs.Compilation
import Intake.Proofs.Conflict
import Intake.Proofs.Elements
import Intake.Proofs.Exactness
import Intake.Proofs.FixedPoint
import Intake.Proofs.Whitelist
import Intake.Proofs.Unclaimed
import Intake.Proofs.Refusal
import Intake.Proofs.Faults
import Intake.Proofs.FirstFault
import Intake.Proofs.Leftovers
import Intake.Proofs.Conformance
import Intake.Proofs.Received
import Intake.Proofs.Rearrangement
import Intake.Proofs.Simulation
import Intake.Proofs.OrderIndependence
import Intake.Proofs.KeyOrder
import Intake.Proofs.Building
import Intake.Proofs.Declaration
import Intake.Proofs.Schema
import Intake.Proofs.Rounding
import Intake.Proofs.Limits
import Intake.Proofs.Arithmetic
import Intake.Proofs.LongestNumeral
import Intake.Proofs.WholeNumbers
import Intake.Proofs.RoundTrip
import Intake.Proofs.FirstBound
import Intake.Proofs.SchemaFaults
import Intake.Proofs.WellDeclared
import Intake.Proofs.IntegerText
import Intake.Proofs.Spelling
import Intake.Proofs.History
import Intake.Proofs.Verdict
import Intake.Proofs.Place
import Intake.Proofs.Report
import Intake.Proofs.Payload
