import ScopeLint.Main
import ScopeLint.Proofs.Analysis.Accounting
import ScopeLint.Proofs.Analysis.Deletion
import ScopeLint.Proofs.Analysis.Influence
import ScopeLint.Proofs.Analysis.Loading
import ScopeLint.Proofs.Analysis.Logging
import ScopeLint.Proofs.Analysis.Outcome
import ScopeLint.Proofs.Analysis.Renaming
import ScopeLint.Proofs.Analysis.Reordering
import ScopeLint.Proofs.Analysis.Repetition
import ScopeLint.Proofs.Command.Clauses
import ScopeLint.Proofs.Command.Response
import ScopeLint.Proofs.Format.Completeness
import ScopeLint.Proofs.Format.FirstProblem
import ScopeLint.Proofs.Format.Integers
import ScopeLint.Proofs.Format.Limits
import ScopeLint.Proofs.Format.RoundTrip
import ScopeLint.Proofs.Scope.Listing
import ScopeLint.Proofs.Scope.Restoration
import ScopeLint.Proofs.Tree.Lines
import ScopeLint.Proofs.Tree.Unambiguous
import ScopeLint.Tree.Construction
import ScopeLint.Tree.Equality
