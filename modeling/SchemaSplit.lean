import SchemaSplit.FileTree
import SchemaSplit.Main
import SchemaSplit.Proofs.Closure
import SchemaSplit.Proofs.FileTree
import SchemaSplit.Proofs.Group
import SchemaSplit.Proofs.Traversal
import SchemaSplit.Proofs.TypeScript.Name
import SchemaSplit.Proofs.TypeScript.Shape
import SchemaSplit.Proofs.TypeScript.Pieces
import SchemaSplit.Proofs.TypeScript.Conversion
import SchemaSplit.Proofs.TypeScript.Module
import SchemaSplit.Proofs.Json.Token
import SchemaSplit.Proofs.Json.Reader
import SchemaSplit.Proofs.Schema.Fields
import SchemaSplit.Proofs.Schema.Writer
import SchemaSplit.Proofs.Node
import SchemaSplit.Proofs.Schema.Reader
import SchemaSplit.Proofs.Json.Draft
import SchemaSplit.Proofs.Yaml.Reader
import SchemaSplit.Proofs.Document
import SchemaSplit.Proofs.Isolation
import SchemaSplit.Proofs.TypeScript.Fault
import SchemaSplit.Proofs.Artifact
import SchemaSplit.Proofs.Partition
import SchemaSplit.Proofs.TypeScript.Success
import SchemaSplit.Proofs.TypeScript.Loading
import SchemaSplit.Proofs.Schema.Acceptance
import SchemaSplit.Proofs.TypeScript.Values
import SchemaSplit.Proofs.TypeScript.Meaning
import SchemaSplit.Proofs.Effects
import SchemaSplit.Proofs.Path
import SchemaSplit.Proofs.TypeScript.Header
import SchemaSplit.Proofs.Plan
import SchemaSplit.Proofs.Program
import SchemaSplit.Proofs.Discovery
import SchemaSplit.Proofs.TypeScript.Search
import SchemaSplit.Proofs.TypeScript.Shaped
import SchemaSplit.Proofs.Json.Same
import SchemaSplit.Proofs.Schema.Entries
import SchemaSplit.Proofs.Schema.Restating
import SchemaSplit.Proofs.Schema.Loss
import SchemaSplit.Proofs.Double
import SchemaSplit.Proofs.Scan
import SchemaSplit.Proofs.TypeScript.Token
import SchemaSplit.Proofs.TypeScript.Grammar
import SchemaSplit.Proofs.TypeScript.Reading
import SchemaSplit.Proofs.Walk
import SchemaSplit.Proofs.TypeScript.Identifier
import SchemaSplit.Proofs.Text.IdentifierClass
import SchemaSplit.Proofs.TypeScript.LegalName
import SchemaSplit.Proofs.TypeScript.Members
import SchemaSplit.Proofs.TypeScript.Nullability
import SchemaSplit.Proofs.TypeScript.Entries
import SchemaSplit.Proofs.TypeScript.Required
import SchemaSplit.Proofs.TypeScript.Comment
import SchemaSplit.Proofs.TypeScript.Constants
import SchemaSplit.Proofs.TypeScript.Branches
import SchemaSplit.Proofs.TypeScript.Globals
import SchemaSplit.Proofs.Rounds
import SchemaSplit.Proofs.TypeScript.Literal
import SchemaSplit.Proofs.TypeScript.Slots
