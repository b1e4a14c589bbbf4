import ApiBindings.ApiDoc.FieldType
import ApiBindings.ApiDoc.Record
import ApiBindings.ApiDoc.Routes
import ApiBindings.Checked
import ApiBindings.CommandLine.Arguments
import ApiBindings.CommandLine.Command
import ApiBindings.CommandLine.Run
import ApiBindings.CommandLine.Session
import ApiBindings.Decimal.Binary64
import ApiBindings.Decimal.Layout
import ApiBindings.Decimal.Power
import ApiBindings.Decimal.Shortest
import ApiBindings.Declarations
import ApiBindings.Document.Access
import ApiBindings.Document.Json
import ApiBindings.Document.Load
import ApiBindings.Document.Spelling
import ApiBindings.Document.Value
import ApiBindings.Fault
import ApiBindings.Files
import ApiBindings.Interchange
import ApiBindings.Main
import ApiBindings.Model
import ApiBindings.OpenApi.Parameters
import ApiBindings.OpenApi.Routes
import ApiBindings.OpenApi.Warning
import ApiBindings.Proofs.ApiDoc.Branches
import ApiBindings.Proofs.ApiDoc.Declared
import ApiBindings.Proofs.ApiDoc.Descriptions
import ApiBindings.Proofs.ApiDoc.Kept
import ApiBindings.Proofs.ApiDoc.Record
import ApiBindings.Proofs.ApiDoc.TypeNames
import ApiBindings.Proofs.ApiDoc.UrlParameters
import ApiBindings.Proofs.ApiDoc.Versions
import ApiBindings.Proofs.CommandLine.Runs
import ApiBindings.Proofs.Declarations.Again
import ApiBindings.Proofs.Declarations.Closed
import ApiBindings.Proofs.Declarations.Conflict
import ApiBindings.Proofs.Declarations.FullWalk
import ApiBindings.Proofs.Declarations.Growth
import ApiBindings.Proofs.Declarations.Places
import ApiBindings.Proofs.Declarations.Replacing
import ApiBindings.Proofs.Declarations.Walk
import ApiBindings.Proofs.Document.Entries
import ApiBindings.Proofs.FirstAppearance
import ApiBindings.Proofs.Grouping
import ApiBindings.Proofs.OpenApi.Bodies
import ApiBindings.Proofs.OpenApi.Components
import ApiBindings.Proofs.OpenApi.Operations
import ApiBindings.Proofs.OpenApi.Parameters
import ApiBindings.Proofs.OpenApi.Placeholders
import ApiBindings.Proofs.OpenApi.Shape
import ApiBindings.Proofs.Outcomes
import ApiBindings.Proofs.Schema.Chains
import ApiBindings.Proofs.Schema.Conversion
import ApiBindings.Proofs.Schema.Discipline
import ApiBindings.Proofs.Schema.Enclosure
import ApiBindings.Proofs.Schema.Entries
import ApiBindings.Proofs.Schema.Faithful
import ApiBindings.Proofs.Schema.Meaning
import ApiBindings.Proofs.Schema.Memory
import ApiBindings.Proofs.Schema.Naming
import ApiBindings.Proofs.Schema.Origin
import ApiBindings.Proofs.Schema.Reachable
import ApiBindings.Proofs.Schema.Recursion
import ApiBindings.Proofs.Schema.References
import ApiBindings.Proofs.Schema.Shape
import ApiBindings.Proofs.Schema.Termination
import ApiBindings.Proofs.Settings
import ApiBindings.Proofs.Source.Comments
import ApiBindings.Proofs.Source.Identifiers
import ApiBindings.Proofs.Source.Literals
import ApiBindings.Proofs.Source.MemberIdentifiers
import ApiBindings.Proofs.Source.Parameters
import ApiBindings.Proofs.Source.PropertyKeys
import ApiBindings.Proofs.Source.Spelling
import ApiBindings.Proofs.Text.Comments
import ApiBindings.Proofs.Text.Markup
import ApiBindings.Proofs.Text.Quotation
import ApiBindings.Proofs.Text.Splitting
import ApiBindings.Proofs.Text.Trimming
import ApiBindings.Proofs.Text.Units
import ApiBindings.Proofs.Text.Words
import ApiBindings.Proofs.Traversal
import ApiBindings.Route
import ApiBindings.Schema.Convert
import ApiBindings.Schema.Converter
import ApiBindings.Schema.Layer
import ApiBindings.Schema.Reference
import ApiBindings.Schema.Stack
import ApiBindings.Settings
import ApiBindings.Source.CSharp
import ApiBindings.Source.Client
import ApiBindings.Source.Language
import ApiBindings.Source.TypeScript
import ApiBindings.Table
import ApiBindings.Text.Alphanumeric
import ApiBindings.Text.Blank
import ApiBindings.Text.DecimalDigit
import ApiBindings.Text.Erase
import ApiBindings.Text.Hexadecimal
import ApiBindings.Text.LetterCase
import ApiBindings.Text.LetterCase.Table
import ApiBindings.Text.Lines
import ApiBindings.Text.Markup
import ApiBindings.Text.Printable
import ApiBindings.Text.PropertyKey
import ApiBindings.Text.Quoted
import ApiBindings.Text.Ranges
import ApiBindings.Text.Split
import ApiBindings.Text.Start
import ApiBindings.Text.Terminal
import ApiBindings.Text.Words
import ApiBindings.Ty
import ApiBindings.Versions
import ApiBindings.Yaml.BlockScalar
import ApiBindings.Yaml.Character
import ApiBindings.Yaml.Node
import ApiBindings.Yaml.Plain
import ApiBindings.Yaml.Property
import ApiBindings.Yaml.QuotedScalar
import ApiBindings.Yaml.Scalar
import ApiBindings.Yaml.Token
import ApiBindings.Yaml.Value
