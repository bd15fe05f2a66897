import Joinery.Catalog
import Joinery.Json.Printer
import Joinery.Plan.Lowering
import Joinery.Proofs.Catalog.Linked
import Joinery.Proofs.Plan.AliasSearch
import Joinery.Proofs.Plan.Collision
import Joinery.Proofs.Plan.Detached
import Joinery.Proofs.Plan.Failures
import Joinery.Proofs.Plan.JoinEvents
import Joinery.Proofs.Plan.LoweringOrder
import Joinery.Proofs.Plan.Paths
import Joinery.Proofs.Plan.Rejoining
import Joinery.Proofs.Plan.Reordering
import Joinery.Proofs.Plan.Sharing
import Joinery.Proofs.Plan.Stability
import Joinery.Proofs.Schema.Faults
import Joinery.Proofs.Schema.Spellings
import Joinery.Proofs.Statement.JoinOrder
import Joinery.Proofs.Statement.Parameters
import Joinery.Proofs.Text.Delimiting
import Joinery.Proofs.Text.Reading
import Joinery.Proofs.Values.Text
import Joinery.Sql.Layout
import Joinery.Sql.Renderer
import Joinery.Value.Layout
