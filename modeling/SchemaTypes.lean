import SchemaTypes.Main
import SchemaTypes.Proofs.Build.Yield
import SchemaTypes.Proofs.TypeTree.Traversal
import SchemaTypes.Proofs.Build.Accounting
import SchemaTypes.Proofs.Build.Parts
import SchemaTypes.Proofs.Json.Pointer
import SchemaTypes.Proofs.Schema.Reference
import SchemaTypes.Proofs.Build.Places
import SchemaTypes.Proofs.Build.References
import SchemaTypes.Proofs.Json.Names
import SchemaTypes.Proofs.Json.Sameness
import SchemaTypes.Proofs.Schema.Validity
import SchemaTypes.Proofs.TypeTree.Inhabitation
import SchemaTypes.Proofs.Schema.Typing
import SchemaTypes.Proofs.Build.Soundness
import SchemaTypes.Proofs.Expression.Basic
import SchemaTypes.Proofs.Expression.Lexer
import SchemaTypes.Proofs.Expression.Reader
import SchemaTypes.Proofs.Expression.Written
import SchemaTypes.Proofs.Expression.Object
import SchemaTypes.Proofs.Expression.Literal
import SchemaTypes.Proofs.TypeTree.Expression
import SchemaTypes.Proofs.Yaml.Names
import SchemaTypes.Proofs.Json.Fragment
import SchemaTypes.Proofs.Schema.Visits
import SchemaTypes.Proofs.Generation.Findings
import SchemaTypes.Proofs.TypeTree.Function
import SchemaTypes.Proofs.Files.Tree
import SchemaTypes.Proofs.CommandLine.Program
import SchemaTypes.Proofs.Text.Comment
import SchemaTypes.Proofs.TypeTree.Description
import SchemaTypes.Proofs.Schema.Description
import SchemaTypes.Proofs.Build.Description
import SchemaTypes.Proofs.Generation.Description
import SchemaTypes.Proofs.Text.Split
import SchemaTypes.Proofs.Naming.Words
import SchemaTypes.Proofs.Build.Declarations
import SchemaTypes.Proofs.Generation.Binding
import SchemaTypes.Proofs.Generation.Strictness
import SchemaTypes.Proofs.Imports
import SchemaTypes.Proofs.Build.Components
import SchemaTypes.Proofs.Generation.Order
import SchemaTypes.Proofs.Text.Blocks
import SchemaTypes.Proofs.TypeTree.Enumeration
import SchemaTypes.Proofs.TypeTree.Lines
import SchemaTypes.Proofs.Declaration.Heading
import SchemaTypes.Proofs.Declaration.Lines
import SchemaTypes.Proofs.Build.Names
import SchemaTypes.Proofs.Generation.Layout
import SchemaTypes.Proofs.Schema.Nullability
import SchemaTypes.Proofs.Build.Nullability
import SchemaTypes.Proofs.Text.Alternatives
import SchemaTypes.Proofs.TypeTree.Alternatives
import SchemaTypes.Proofs.Declaration.Meaning
import SchemaTypes.Proofs.Declaration.Enumeration
import SchemaTypes.Proofs.Build.Environment
import SchemaTypes.Proofs.Build.Form
import SchemaTypes.Proofs.Build.TypeList
import SchemaTypes.Proofs.Text.Blank
import SchemaTypes.Proofs.Text.Utf8
import SchemaTypes.Proofs.CommandLine.Imports
import SchemaTypes.Proofs.Naming.Canonical
import SchemaTypes.Proofs.Text.Literal
import SchemaTypes.Proofs.Naming.Keys
import SchemaTypes.Proofs.Text.DocLine
import SchemaTypes.Proofs.TypeTree.Indentation
import SchemaTypes.Proofs.TypeTree.CustomType
import SchemaTypes.Proofs.TypeTree.Precedence
