import ItemSchema.Embedded.ImportHeader
import ItemSchema.Embedded.QueryColumn
import ItemSchema.Exchange.Load
import ItemSchema.Workspace
import ItemSchema.Proofs.Resolution.Outcome
import ItemSchema.Proofs.Workspace.Session
import ItemSchema.Proofs.Workspace.CacheTransparency
import ItemSchema.Proofs.Registry.Registration
import ItemSchema.Proofs.Workspace.FreshBuild
import ItemSchema.Proofs.Registry.Slice
import ItemSchema.Proofs.Model.References
import ItemSchema.Proofs.Reordering
import ItemSchema.Proofs.Registry.Records
import ItemSchema.Proofs.Model.Ancestry
import ItemSchema.Proofs.Resolution.ItemOwner
import ItemSchema.Proofs.Json.Quoted
import ItemSchema.Proofs.Json.Numeral
import ItemSchema.Proofs.Json.Layout
import ItemSchema.Proofs.Exchange.RoundTrip
import ItemSchema.Proofs.Resolution.CacheHistory
import ItemSchema.Proofs.Resolution.Cancellation
import ItemSchema.Proofs.Model.Walk
import ItemSchema.Proofs.Resolution.Locality
import ItemSchema.Proofs.Registry.Reachable
import ItemSchema.Proofs.Resolution.Scheduling
import ItemSchema.Proofs.Model.MaximalChain
import ItemSchema.Proofs.Model.Subtyping
import ItemSchema.Proofs.Resolution.Inheritance
import ItemSchema.Proofs.Registry.Tables
import ItemSchema.Proofs.Registry.MergedItem
import ItemSchema.Proofs.Table.Collected
import ItemSchema.Proofs.Registry.MergedTypes
import ItemSchema.Proofs.Registry.Conflicts
import ItemSchema.Proofs.Model.Shadowing
import ItemSchema.Proofs.Resolution.RelationOwner
import ItemSchema.Proofs.Resolution.Verdicts
import ItemSchema.Proofs.Table.Repeated
import ItemSchema.Proofs.Repetition
import ItemSchema.Proofs.Embedded.ColumnGrammar
import ItemSchema.Proofs.Embedded.ReachedFeatures
import ItemSchema.Proofs.Exchange.DeclarationSpelling
import ItemSchema.Proofs.Json.Utf8
import ItemSchema.Proofs.Exchange.Streaming
import ItemSchema.Proofs.Resolution.RoleCasing
import ItemSchema.Proofs.Registry.WellKept
import ItemSchema.Proofs.Registry.History
import ItemSchema.Proofs.Model.WellKept
