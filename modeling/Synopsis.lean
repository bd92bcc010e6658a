import Synopsis.Coercion
import Synopsis.CommandLine
import Synopsis.Comparison
import Synopsis.Construction
import Synopsis.Datum
import Synopsis.Decimal.Binary64
import Synopsis.Decimal.Layout
import Synopsis.Decimal.Numeral
import Synopsis.Decimal.Shortest
import Synopsis.Description
import Synopsis.Entries
import Synopsis.Failure
import Synopsis.Fault
import Synopsis.Fault.Code
import Synopsis.Fault.Rendering
import Synopsis.Invocation
import Synopsis.Main
import Synopsis.Naming
import Synopsis.NodeKind
import Synopsis.OptionDecl
import Synopsis.Pattern
import Synopsis.Pattern.Printer
import Synopsis.Proofs.Abbreviation
import Synopsis.Proofs.Announcements
import Synopsis.Proofs.Balance
import Synopsis.Proofs.Bindings
import Synopsis.Proofs.Boundaries
import Synopsis.Proofs.Canonical
import Synopsis.Proofs.Classification
import Synopsis.Proofs.Clusters
import Synopsis.Proofs.Composition
import Synopsis.Proofs.Counting
import Synopsis.Proofs.Derivation
import Synopsis.Proofs.Equality
import Synopsis.Proofs.Expansion
import Synopsis.Proofs.Extraction
import Synopsis.Proofs.Folding
import Synopsis.Proofs.Growth
import Synopsis.Proofs.HelpText
import Synopsis.Proofs.Invoking
import Synopsis.Proofs.LeafOrder
import Synopsis.Proofs.Lines
import Synopsis.Proofs.Lookup
import Synopsis.Proofs.Modes
import Synopsis.Proofs.Nesting
import Synopsis.Proofs.Nodes
import Synopsis.Proofs.NormalForm
import Synopsis.Proofs.Pinpointing
import Synopsis.Proofs.Placement
import Synopsis.Proofs.Progress
import Synopsis.Proofs.Recall
import Synopsis.Proofs.Refusal
import Synopsis.Proofs.Reordering
import Synopsis.Proofs.Reports
import Synopsis.Proofs.Retyping
import Synopsis.Proofs.RoundTrip
import Synopsis.Proofs.Scanning
import Synopsis.Proofs.Spelling
import Synopsis.Proofs.Stability
import Synopsis.Proofs.Stages
import Synopsis.Proofs.Stretches
import Synopsis.Proofs.Surfacing
import Synopsis.Proofs.Turns
import Synopsis.Proofs.Weight
import Synopsis.Proofs.Written
import Synopsis.Request
import Synopsis.Request.Unchecked
import Synopsis.Resolution
import Synopsis.Sample
import Synopsis.Session
import Synopsis.StyledText
import Synopsis.Text.Blank
import Synopsis.Text.CaseMaps
import Synopsis.Text.Casing
import Synopsis.Text.Folding
import Synopsis.Text.Letters
import Synopsis.Text.Ordinal
import Synopsis.Text.Printable
import Synopsis.Text.Progression
import Synopsis.Text.Quoted
import Synopsis.Text.Words
import Synopsis.Token
import Synopsis.Usage.Grammar
import Synopsis.Usage.Section
import Synopsis.Value
