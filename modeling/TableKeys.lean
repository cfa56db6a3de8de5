import TableKeys.Declared
import TableKeys.Proofs.Accepted
import TableKeys.Proofs.Assignments
import TableKeys.Proofs.Composite
import TableKeys.Proofs.Definitions
import TableKeys.Proofs.Effects
import TableKeys.Proofs.ExprReader
import TableKeys.Proofs.FailedChange
import TableKeys.Proofs.Filters
import TableKeys.Proofs.GeneratedText
import TableKeys.Proofs.Growth
import TableKeys.Proofs.Independence
import TableKeys.Proofs.IndexUpkeep
import TableKeys.Proofs.Injected
import TableKeys.Proofs.ItemKey
import TableKeys.Proofs.JsonText
import TableKeys.Proofs.KeyAgreement
import TableKeys.Proofs.KeyFits
import TableKeys.Proofs.KeyReplacement
import TableKeys.Proofs.Lookup
import TableKeys.Proofs.Maintenance
import TableKeys.Proofs.Opening
import TableKeys.Proofs.Paths
import TableKeys.Proofs.Placement
import TableKeys.Proofs.Readable
import TableKeys.Proofs.References
import TableKeys.Proofs.Results
import TableKeys.Proofs.SameText
import TableKeys.Proofs.Scene
import TableKeys.Proofs.SchemaName
import TableKeys.Proofs.Settled
import TableKeys.Proofs.Shows
import TableKeys.Proofs.SlotContents
import TableKeys.Proofs.SlotRun
import TableKeys.Proofs.Steps
import TableKeys.Proofs.StmtReader
import TableKeys.Proofs.TableRun
import TableKeys.Proofs.Validation
import TableKeys.Proofs.Writes
import TableKeys.Table.Shape
import TableKeys.Table.View
import TableKeys.Proofs.Arguments
import TableKeys.Proofs.KeyCondition
import TableKeys.Proofs.CompositeText
import TableKeys.Proofs.Separation
import TableKeys.Proofs.SlotPipeline
import TableKeys.Proofs.Continued
import TableKeys.Proofs.Raised
import TableKeys.Proofs.Progress
import TableKeys.Proofs.Clauses
import TableKeys.Proofs.FailedQueries
import TableKeys.Proofs.Hygiene
import TableKeys.Proofs.ListQueries
import TableKeys.Proofs.Quiet
import TableKeys.Proofs.Warnings
import TableKeys.Proofs.QueryOperands
import TableKeys.Proofs.FilterMeaning
import TableKeys.Proofs.FilterShape
import TableKeys.Proofs.IndexQueries
import TableKeys.Proofs.Unwrapping
import TableKeys.Proofs.NameOverrides
import TableKeys.Proofs.Nesting
