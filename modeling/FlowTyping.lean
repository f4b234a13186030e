import FlowTyping.Diagnostic.Report
import FlowTyping.Diagnostic.Terminal
import FlowTyping.RecursionBudget
import FlowTyping.Session
import FlowTyping.Syntax.Builder
import FlowTyping.Syntax.Equality
import FlowTyping.Syntax.Printer
import FlowTyping.Proofs.Arena.History
import FlowTyping.Proofs.Scheme.Independence
import FlowTyping.Proofs.Session.Batches
import FlowTyping.Proofs.Session.ExpressionSets
import FlowTyping.Proofs.Session.Generation
import FlowTyping.Proofs.Session.Guarded
import FlowTyping.Proofs.Session.Inflow
import FlowTyping.Proofs.Session.Labels
import FlowTyping.Proofs.Session.Mentions
import FlowTyping.Proofs.Session.Polarity
import FlowTyping.Proofs.Session.Termination
import FlowTyping.Proofs.Session.Validity
import FlowTyping.Proofs.TypeGraph.Confluence
import FlowTyping.Proofs.Arena.Report
import FlowTyping.Proofs.Session.Narrowing
import FlowTyping.Proofs.TypeGraph.Supply
import FlowTyping.Proofs.TypeGraph.Widening
import FlowTyping.Proofs.Session.Arithmetic
import FlowTyping.Proofs.Arena.Restoration
import FlowTyping.Proofs.Check.Environment
import FlowTyping.Proofs.Check.UndoLog
import FlowTyping.Proofs.Session.Prototypes
import FlowTyping.Proofs.Syntax.Parts
import FlowTyping.Proofs.Check.Provenance
import FlowTyping.Proofs.Session.Provenance
import FlowTyping.Proofs.Diagnostic.Positions
import FlowTyping.Proofs.Check.Patterns
import FlowTyping.Proofs.Check.FirstOffence
import FlowTyping.Proofs.TypeGraph.Iterations
import FlowTyping.Proofs.Diagnostic.Lines
import FlowTyping.Proofs.Diagnostic.Snippets
import FlowTyping.Proofs.Diagnostic.Colors
import FlowTyping.Proofs.Syntax.Interning
import FlowTyping.Proofs.Syntax.FreshSpans
import FlowTyping.Proofs.Diagnostic.Guarded
