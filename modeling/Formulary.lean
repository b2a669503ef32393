import Formulary.Arena.Construction
import Formulary.Code.Program
import Formulary.CommandLine.Execution
import Formulary.Format.Formula
import Formulary.Host.Rehearsal
import Formulary.Main
import Formulary.Pattern
import Formulary.Registry
import Formulary.Sampling.Edge
import Formulary.Sampling.Random
import Formulary.Search.Finite
import Formulary.Session
import Formulary.Text.Blank
import Formulary.Text.Utf8
import Formulary.Proofs.Json.Scanning
import Formulary.Proofs.Json.Documents
import Formulary.Proofs.Format.RoundTrip
import Formulary.Proofs.Evaluation
import Formulary.Proofs.Traversal.Turns
import Formulary.Proofs.Traversal.Moments
import Formulary.Proofs.Evaluation.Recursion
import Formulary.Proofs.Search.OracleErasure
import Formulary.Proofs.Search.Exhaustion
import Formulary.Proofs.Search.Transcript
import Formulary.Proofs.Search.Accounting
import Formulary.Proofs.Search.Bounds
import Formulary.Proofs.Search.Faithfulness
import Formulary.Proofs.Typing
import Formulary.Proofs.Evaluation.Soundness
import Formulary.Proofs.Evaluation.Widths
import Formulary.Proofs.Code.Machine
import Formulary.Proofs.Code.Tokens
import Formulary.Proofs.Code.Terms
import Formulary.Proofs.Code.Parsing
import Formulary.Proofs.Code.Scope
import Formulary.Proofs.Code.Agreement
import Formulary.Proofs.Code.Simulation
import Formulary.Proofs.Vectors
import Formulary.Proofs.Evaluation.Denotation
import Formulary.Proofs.Code.Refusal
import Formulary.Proofs.Code.Declarations
import Formulary.Proofs.Code.Acceptance
import Formulary.Proofs.Code.Reading
import Formulary.Proofs.Code.Meaning
import Formulary.Proofs.Code.Numerals
import Formulary.Proofs.Code.Spelling
import Formulary.Proofs.Code.Correspondence
import Formulary.Proofs.Code.Definitions
import Formulary.Proofs.Code.Execution
import Formulary.Proofs.Session.Steps
import Formulary.Proofs.Session.History
import Formulary.Proofs.Ratio
import Formulary.Proofs.Arena.Sharing
import Formulary.Proofs.Text
import Formulary.Proofs.Session.Results
import Formulary.Proofs.Session.Service
import Formulary.Proofs.Session.Bench
import Formulary.Proofs.Session.Oracle
import Formulary.Proofs.Session.Provenance
import Formulary.Proofs.CommandLine.Agreement
import Formulary.Proofs.Code.Columns
import Formulary.Proofs.Unsupported
import Formulary.Proofs.Code.Integers
import Formulary.Proofs.Code.Header
import Formulary.Proofs.Arena.Loading
import Formulary.Proofs.Evaluation.Arithmetic
import Formulary.Proofs.Search.Proposals
import Formulary.Proofs.Session.Failure
import Formulary.Proofs.Evaluation.Division
import Formulary.Proofs.Registry
import Formulary.Proofs.Dependence
import Formulary.Proofs.CommandLine.Verification
import Formulary.Proofs.Row
import Formulary.Proofs.Search.Enumeration
import Formulary.Proofs.Sampling.Ranges
import Formulary.Proofs.Sampling.Coverage
import Formulary.Proofs.Sampling.Repetition
