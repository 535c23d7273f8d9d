import RowPolicy.Assertion
import RowPolicy.Comparison
import RowPolicy.Explanation
import RowPolicy.PublicNames
import RowPolicy.Session
import RowPolicy.Proofs.Leaves
import RowPolicy.Proofs.RelatedRows
import RowPolicy.Proofs.Selection
import RowPolicy.Proofs.SubjectDecision
import RowPolicy.Proofs.ProxyStatement
import RowPolicy.Proofs.FilterTables
import RowPolicy.Proofs.Denial
import RowPolicy.Proofs.Integrity
import RowPolicy.Proofs.Multiplicity
import RowPolicy.Proofs.Writing
import RowPolicy.Proofs.Resolving
import RowPolicy.Proofs.SingleRule
import RowPolicy.Proofs.Relevance
import RowPolicy.Proofs.ProxyRows
import RowPolicy.Proofs.ReturnedOnce
import RowPolicy.Proofs.OutlinedRules
import RowPolicy.Proofs.OutlinedStatements
import RowPolicy.Proofs.BoundText
import RowPolicy.Proofs.Exchange
import RowPolicy.Proofs.Explaining
import RowPolicy.Proofs.Reporting
import RowPolicy.Proofs.Joinability
import RowPolicy.Proofs.Lapse
import RowPolicy.Proofs.Isolation
import RowPolicy.Proofs.PlainFold
import RowPolicy.Proofs.Agreement
import RowPolicy.Proofs.Likeness
import RowPolicy.Proofs.Division
import RowPolicy.Proofs.Alternatives
import RowPolicy.Proofs.Opposite
import RowPolicy.Proofs.Coverage
import RowPolicy.Proofs.Traversal
import RowPolicy.Proofs.Qualification
import RowPolicy.Proofs.JoinUnion
import RowPolicy.Proofs.JoinWalk
import RowPolicy.Proofs.Registration
import RowPolicy.Proofs.Layering
