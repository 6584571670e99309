import EventOperator.Config.File
import EventOperator.Metrics.Exposition
import EventOperator.Proofs.Assembly
import EventOperator.Proofs.Bounds
import EventOperator.Proofs.Comments
import EventOperator.Proofs.Config.Build
import EventOperator.Proofs.Context.Copies
import EventOperator.Proofs.Context.Families
import EventOperator.Proofs.Context.Frame
import EventOperator.Proofs.Context.Request
import EventOperator.Proofs.Engine.ManagerSite
import EventOperator.Proofs.Extensions
import EventOperator.Proofs.Filters
import EventOperator.Proofs.Handlers
import EventOperator.Proofs.Interleaving
import EventOperator.Proofs.Log.Nesting
import EventOperator.Proofs.Metrics.Account
import EventOperator.Proofs.Metrics.Count
import EventOperator.Proofs.Metrics.Grouping
import EventOperator.Proofs.Metrics.Key
import EventOperator.Proofs.Metrics.Removal
import EventOperator.Proofs.Nesting
import EventOperator.Proofs.Operation
import EventOperator.Proofs.Order
import EventOperator.Proofs.Plan.Alike
import EventOperator.Proofs.Plan.Call
import EventOperator.Proofs.Plan.Generation
import EventOperator.Proofs.Plan.History
import EventOperator.Proofs.Plan.Selection
import EventOperator.Proofs.Query.Chain
import EventOperator.Proofs.Query.Cleared
import EventOperator.Proofs.Query.Clearing.Alias
import EventOperator.Proofs.Query.Join
import EventOperator.Proofs.Query.Matching
import EventOperator.Proofs.Query.Statement
import EventOperator.Proofs.Renaming
import EventOperator.Proofs.Statements
import EventOperator.Proofs.Table
import EventOperator.Proofs.Text.Border
import EventOperator.Proofs.Text.Reader
import EventOperator.Proofs.Words
