import SExpr.Operator
import SExpr.Word
import SExpr.Text.Decimal
import SExpr.Text.Standalone
import SExpr.Text.Quoted
import SExpr.Token
import SExpr.Error
import SExpr.Lexeme
import SExpr.Scanner
import SExpr.Cursor
import SExpr.Node.Basic
import SExpr.Node.Leaves
import SExpr.Node.Depth
import SExpr.Node.Printer
import SExpr.Node.Release
import SExpr.Tree
import SExpr.Assembly
import SExpr.Accumulators
import SExpr.Reader
import SExpr.Workbench
import SExpr.Log
import SExpr.Serial.Value
import SExpr.Serial.Codec
import SExpr.Proofs.Scanning
import SExpr.Proofs.Faults
import SExpr.Proofs.Resumption
import SExpr.Proofs.Assembling
import SExpr.Proofs.Flattening
import SExpr.Proofs.Printing
import SExpr.Proofs.RoundTrip
import SExpr.Proofs.Refusal
import SExpr.Proofs.Depth
import SExpr.Proofs.Limits
import SExpr.Proofs.Runs
import SExpr.Proofs.Language
import SExpr.Proofs.Layout
import SExpr.Proofs.Numerals
import SExpr.Proofs.Canonical
import SExpr.Proofs.Concatenation
import SExpr.Proofs.Descent
import SExpr.Proofs.Conservation
import SExpr.Proofs.Places
import SExpr.Proofs.Reports
import SExpr.Proofs.Interchange
import SExpr.Proofs.Inventory
import SExpr.Proofs.Spacing
import SExpr.Proofs.Continuation
import SExpr.Proofs.Completion
import SExpr.Proofs.Enclosure
import SExpr.Proofs.Rendering
import SExpr.Proofs.Metrics
import SExpr.Proofs.Traversal
import SExpr.Proofs.Messages
import SExpr.Proofs.Bounds
import SExpr.Proofs.Retention
