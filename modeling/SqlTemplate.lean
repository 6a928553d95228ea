import SqlTemplate.Json.Parser
import SqlTemplate.Value.Wire
import SqlTemplate.Registry.Recipe
import SqlTemplate.Client
import SqlTemplate.Proofs.Numbering
import SqlTemplate.Proofs.Reuse
import SqlTemplate.Proofs.Dangling
import SqlTemplate.Proofs.Elimination
import SqlTemplate.Proofs.Conservation
import SqlTemplate.Proofs.Statement
import SqlTemplate.Proofs.Lexing
import SqlTemplate.Proofs.Reading
import SqlTemplate.Proofs.RoundTrip
import SqlTemplate.Proofs.Spans
import SqlTemplate.Proofs.Inlining
import SqlTemplate.Proofs.Readback
import SqlTemplate.Proofs.Inference
import SqlTemplate.Proofs.Usage
import SqlTemplate.Proofs.Register
import SqlTemplate.Proofs.Markers
import SqlTemplate.Proofs.Restyling
import SqlTemplate.Proofs.Sessions
import SqlTemplate.Proofs.Parity
import SqlTemplate.Proofs.Iterations
import SqlTemplate.Proofs.Paths
import SqlTemplate.Proofs.Prefixes
import SqlTemplate.Proofs.TableTexts
import SqlTemplate.Proofs.NamedQueries
import SqlTemplate.Proofs.Budget
import SqlTemplate.Proofs.Splicing
import SqlTemplate.Proofs.NormalForm
import SqlTemplate.Proofs.Longhand
import SqlTemplate.Proofs.Notations
import SqlTemplate.Proofs.Parameters
import SqlTemplate.Proofs.Dispatch
import SqlTemplate.Proofs.Events
import SqlTemplate.Proofs.Executions
import SqlTemplate.Proofs.Coverage
import SqlTemplate.Proofs.Truncation
