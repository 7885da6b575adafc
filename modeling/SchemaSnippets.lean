import SchemaSnippets.Main
import SchemaSnippets.Proofs.Model.LegalNames
import SchemaSnippets.Proofs.Plan.Traversal
import SchemaSnippets.Proofs.Plan.Invariants
import SchemaSnippets.Proofs.Plan.Coverage
import SchemaSnippets.Proofs.Plan.Order
import SchemaSnippets.Proofs.Plan.BackReferences
import SchemaSnippets.Proofs.Snippet.ClosedReferences
import SchemaSnippets.Proofs.Snippet.FiniteSize
import SchemaSnippets.Proofs.Snippet.MissingTypes
import SchemaSnippets.Proofs.Snippet.UnrelatedTypes
import SchemaSnippets.Proofs.Snippet.Untyped
import SchemaSnippets.Proofs.Report.Check
import SchemaSnippets.Proofs.Target.Rust.Bindings
import SchemaSnippets.Proofs.Snippet.CatalogOrder
import SchemaSnippets.Proofs.Snippet.OwnNames
import SchemaSnippets.Proofs.Snippet.Documentation
import SchemaSnippets.Proofs.Request.Given
import SchemaSnippets.Proofs.Request.Nulls
import SchemaSnippets.Proofs.Request.NameSpellings
import SchemaSnippets.Proofs.Snippet.BareResult
import SchemaSnippets.Proofs.Snippet.Fields
import SchemaSnippets.Proofs.Snippet.SharedFindings
import SchemaSnippets.Proofs.Schema.Ancestry
import SchemaSnippets.Proofs.Schema.NameGrammar
import SchemaSnippets.Proofs.Target.Kotlin.Nullability
import SchemaSnippets.Proofs.Target.TypeScript.TypeGrammar
import SchemaSnippets.Proofs.Target.RawStrings
import SchemaSnippets.Proofs.Snippet.ModelImports
import SchemaSnippets.Proofs.Snippet.BareNames
import SchemaSnippets.Proofs.Target.Rust.ImportBlock
import SchemaSnippets.Proofs.Snippet.SheetFormula
import SchemaSnippets.Proofs.Report.OutputDirectory
import SchemaSnippets.Proofs.Text.Position
import SchemaSnippets.Proofs.Target.Rust.DistinctNames
import SchemaSnippets.Proofs.Text.SnakeCase
import SchemaSnippets.Proofs.Request.BlankQuery
