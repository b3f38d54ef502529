import GraphQuery.Main
import GraphQuery.Plan.Written
import GraphQuery.Proofs.Visits
import GraphQuery.Proofs.Pieces
import GraphQuery.Proofs.OnePass
import GraphQuery.Proofs.FirstVisits
import GraphQuery.Proofs.OneArena
import GraphQuery.Proofs.Runs
import GraphQuery.Proofs.Apart
import GraphQuery.Proofs.Lexer
import GraphQuery.Proofs.Numerals
import GraphQuery.Proofs.Mentioned
import GraphQuery.Proofs.Tokens
import GraphQuery.Proofs.Bindings
import GraphQuery.Proofs.Bookkeeping
import GraphQuery.Proofs.UsedParams
import GraphQuery.Proofs.BoundPlans
import GraphQuery.Proofs.Steps
import GraphQuery.Proofs.Walks
import GraphQuery.Proofs.Confined
import GraphQuery.Proofs.Relabel
import GraphQuery.Proofs.SameBuild
import GraphQuery.Proofs.Renames
import GraphQuery.Proofs.Carries
import GraphQuery.Proofs.HiddenValues
import GraphQuery.Proofs.PlanNames
import GraphQuery.Proofs.WellFormed
import GraphQuery.Proofs.Conditions
import GraphQuery.Proofs.Nested
import GraphQuery.Proofs.Formula
import GraphQuery.Proofs.Leaves
import GraphQuery.Proofs.ExprReader
import GraphQuery.Proofs.Unambiguous
import GraphQuery.Proofs.Settled
import GraphQuery.Proofs.FirstDefect
import GraphQuery.Proofs.Sequence
import GraphQuery.Proofs.ReadBack
import GraphQuery.Proofs.LeftInverse
import GraphQuery.Proofs.Proper
import GraphQuery.Proofs.Stored
import GraphQuery.Proofs.WrittenRecords
import GraphQuery.Proofs.RoundTrip
import GraphQuery.Proofs.Depth
import GraphQuery.Proofs.Parts
import GraphQuery.Proofs.Sessions
import GraphQuery.Proofs.Literals
import GraphQuery.Proofs.AlikePlans
import GraphQuery.Proofs.InlineValues
import GraphQuery.Proofs.Integers
import GraphQuery.Proofs.InlineIntegers
import GraphQuery.Proofs.Equality
import GraphQuery.Proofs.QuotedNames
import GraphQuery.Proofs.Layers
import GraphQuery.Proofs.StoredTerms
import GraphQuery.Proofs.Collisions
