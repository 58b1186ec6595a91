import EntityCatalog.Aspect
import EntityCatalog.Aspect.Error
import EntityCatalog.Aspect.Extension
import EntityCatalog.Aspect.Remote
import EntityCatalog.Aspect.Status
import EntityCatalog.Aspect.Store
import EntityCatalog.Aspect.Template
import EntityCatalog.Chain
import EntityCatalog.Chain.Error
import EntityCatalog.CommandLine.Arguments
import EntityCatalog.CommandLine.Execution
import EntityCatalog.Config
import EntityCatalog.Connector
import EntityCatalog.Construction
import EntityCatalog.Decimal.Binary64
import EntityCatalog.Decimal.Shortest
import EntityCatalog.Declaration
import EntityCatalog.Document.JsonText
import EntityCatalog.Document.Source
import EntityCatalog.Document.Yaml.Cursor
import EntityCatalog.Document.Yaml.Node
import EntityCatalog.Document.Yaml.Reader
import EntityCatalog.Document.Yaml.Resolve
import EntityCatalog.Document.Yaml.Scalar
import EntityCatalog.Document.Yaml.Token
import EntityCatalog.Entity
import EntityCatalog.Files.Tree
import EntityCatalog.Hash.Sha256
import EntityCatalog.Ident
import EntityCatalog.Json.Text
import EntityCatalog.Json.Value
import EntityCatalog.Main
import EntityCatalog.Proofs.Additions
import EntityCatalog.Proofs.Aspect.Compiling
import EntityCatalog.Proofs.Aspect.Discovery
import EntityCatalog.Proofs.Aspect.Endpoint
import EntityCatalog.Proofs.Aspect.Filling
import EntityCatalog.Proofs.Aspect.Frame
import EntityCatalog.Proofs.Aspect.Listing
import EntityCatalog.Proofs.Aspect.Reading
import EntityCatalog.Proofs.Aspect.Sight
import EntityCatalog.Proofs.Aspect.Sources
import EntityCatalog.Proofs.Aspect.Storage
import EntityCatalog.Proofs.Aspect.Traffic
import EntityCatalog.Proofs.Chain.Build
import EntityCatalog.Proofs.Chain.Complete
import EntityCatalog.Proofs.Chain.Failure
import EntityCatalog.Proofs.Chain.Grouping
import EntityCatalog.Proofs.Chain.Loading
import EntityCatalog.Proofs.Chain.Merging
import EntityCatalog.Proofs.Chain.Simulation
import EntityCatalog.Proofs.Chain.Stopping
import EntityCatalog.Proofs.Codec
import EntityCatalog.Proofs.Collection
import EntityCatalog.Proofs.Connector
import EntityCatalog.Proofs.Document.Object
import EntityCatalog.Proofs.Document.Payload
import EntityCatalog.Proofs.Document.Record
import EntityCatalog.Proofs.Files.Descent
import EntityCatalog.Proofs.Files.Entries
import EntityCatalog.Proofs.Ident
import EntityCatalog.Proofs.Merging
import EntityCatalog.Proofs.Provider.Answers
import EntityCatalog.Proofs.Provider.Comparison
import EntityCatalog.Proofs.Provider.Construction
import EntityCatalog.Proofs.Provider.Context
import EntityCatalog.Proofs.Provider.Contribution
import EntityCatalog.Proofs.Provider.Declaration
import EntityCatalog.Proofs.Provider.Filtering
import EntityCatalog.Proofs.Provider.Injection
import EntityCatalog.Proofs.Provider.Introspection
import EntityCatalog.Proofs.Provider.Isolation
import EntityCatalog.Proofs.Provider.Order
import EntityCatalog.Proofs.Provider.Routing
import EntityCatalog.Proofs.Provider.Services
import EntityCatalog.Proofs.Provider.Strictness
import EntityCatalog.Proofs.Provider.Things
import EntityCatalog.Proofs.Repository
import EntityCatalog.Proofs.Schema.Check
import EntityCatalog.Proofs.Schema.Conformance
import EntityCatalog.Proofs.Schema.Encoding
import EntityCatalog.Proofs.Schema.Fingerprint
import EntityCatalog.Proofs.Schema.Growth
import EntityCatalog.Proofs.Schema.Registry
import EntityCatalog.Proofs.Schema.TypeUrl
import EntityCatalog.Proofs.Schema.Union
import EntityCatalog.Proofs.Service.Conjunction
import EntityCatalog.Proofs.Service.Filter
import EntityCatalog.Proofs.Service.Reports
import EntityCatalog.Proofs.Service.Retrieval
import EntityCatalog.Proofs.Service.Stopping
import EntityCatalog.Proofs.Service.Traffic
import EntityCatalog.Proofs.SortedMap
import EntityCatalog.Proofs.Text.Blank
import EntityCatalog.Proofs.Text.ByteOrder
import EntityCatalog.Proofs.Text.Split
import EntityCatalog.Proofs.Traversal
import EntityCatalog.Proofs.World
import EntityCatalog.Provider
import EntityCatalog.Repository
import EntityCatalog.Request
import EntityCatalog.Schema.Builtin
import EntityCatalog.Schema.Conformance
import EntityCatalog.Schema.Descriptor
import EntityCatalog.Schema.Registry
import EntityCatalog.Service
import EntityCatalog.SortedMap
import EntityCatalog.Text
import EntityCatalog.Time.Instant
import EntityCatalog.World
