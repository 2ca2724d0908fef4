import WixAuthoring.Attributes
import WixAuthoring.Broadcast
import WixAuthoring.Build
import WixAuthoring.CommandLine.Flag
import WixAuthoring.CommandLine.Help
import WixAuthoring.CommandLine.Mark
import WixAuthoring.CommandLine.Options
import WixAuthoring.CommandLine.Reading
import WixAuthoring.CommandLine.Refusal
import WixAuthoring.Failure
import WixAuthoring.Footprint
import WixAuthoring.Guid
import WixAuthoring.Identifier
import WixAuthoring.Journal
import WixAuthoring.Json.Reading
import WixAuthoring.Json.Value
import WixAuthoring.Json.Writing
import WixAuthoring.Machine
import WixAuthoring.Main
import WixAuthoring.Manifest
import WixAuthoring.Package.Basic
import WixAuthoring.Package.Describe
import WixAuthoring.Package.Edit
import WixAuthoring.Package.Entry
import WixAuthoring.Package.Scope
import WixAuthoring.Path
import WixAuthoring.Product
import WixAuthoring.Program
import WixAuthoring.Sha1
import WixAuthoring.Source.Component
import WixAuthoring.Source.Document
import WixAuthoring.Source.Features
import WixAuthoring.Source.Files
import WixAuthoring.Source.Identity
import WixAuthoring.Source.Parts
import WixAuthoring.Source.Sorting
import WixAuthoring.Source.Tree
import WixAuthoring.Store.Basic
import WixAuthoring.Store.Change
import WixAuthoring.Store.Disk
import WixAuthoring.Store.Error
import WixAuthoring.Store.Setup
import WixAuthoring.Store.Walk
import WixAuthoring.Text.Blank
import WixAuthoring.Text.Digit
import WixAuthoring.Text.Given
import WixAuthoring.Text.Hexadecimal
import WixAuthoring.Text.Line
import WixAuthoring.Text.Printable
import WixAuthoring.Text.Quoted
import WixAuthoring.Text.Split
import WixAuthoring.Text.Utf8
import WixAuthoring.Toolchain
import WixAuthoring.Version.Basic
import WixAuthoring.Version.Order
import WixAuthoring.Version.Reading
import WixAuthoring.Version.Semantic
import WixAuthoring.Version.Token
import WixAuthoring.Xml.Character
import WixAuthoring.Xml.Element
import WixAuthoring.Xml.Names
import WixAuthoring.Xml.Reading
import WixAuthoring.Xml.Writing
import WixAuthoring.Proofs.Sorting
import WixAuthoring.Proofs.Elements
import WixAuthoring.Proofs.Placement
import WixAuthoring.Proofs.Tree
import WixAuthoring.Proofs.Document
import WixAuthoring.Proofs.Features
import WixAuthoring.Proofs.FeatureIds
import WixAuthoring.Proofs.Directories
import WixAuthoring.Proofs.Identity
import WixAuthoring.Proofs.Escapes
import WixAuthoring.Proofs.Markup
import WixAuthoring.Proofs.Layout
import WixAuthoring.Proofs.Expansion
import WixAuthoring.Proofs.RoundTrip
import WixAuthoring.Proofs.Strings
import WixAuthoring.Proofs.Encoding
import WixAuthoring.Proofs.Arrival
import WixAuthoring.Proofs.Growth
import WixAuthoring.Proofs.PathTexts
import WixAuthoring.Proofs.Actions
import WixAuthoring.Proofs.Writing
import WixAuthoring.Proofs.FilePaths
import WixAuthoring.Proofs.Sources
import WixAuthoring.Proofs.Rendering
import WixAuthoring.Proofs.Runs
import WixAuthoring.Proofs.Failures
import WixAuthoring.Proofs.Tools
import WixAuthoring.Proofs.Workshop
import WixAuthoring.Proofs.Pipeline
import WixAuthoring.Proofs.Checking
import WixAuthoring.Proofs.Delivery
import WixAuthoring.Proofs.Mistakes
import WixAuthoring.Proofs.OutputPaths
import WixAuthoring.Proofs.Scopes
import WixAuthoring.Proofs.Dependence
import WixAuthoring.Proofs.Stability
import WixAuthoring.Proofs.Spellings
import WixAuthoring.Proofs.Numerals
import WixAuthoring.Proofs.Tokens
import WixAuthoring.Proofs.Arguments
import WixAuthoring.Proofs.Boundaries
import WixAuthoring.Proofs.QuotedValues
import WixAuthoring.Proofs.SemanticTokens
import WixAuthoring.Proofs.DocumentNames
import WixAuthoring.Proofs.Defects
import WixAuthoring.Proofs.InstallerVersions
import WixAuthoring.Proofs.InstallNames
import WixAuthoring.Proofs.Decimals
import WixAuthoring.Proofs.JsonTexts
import WixAuthoring.Proofs.JsonValues
import WixAuthoring.Proofs.Records
import WixAuthoring.Proofs.ErrorLog
import WixAuthoring.Proofs.SourcePaths
import WixAuthoring.Proofs.LegalIdentifiers
import WixAuthoring.Proofs.VariableIds
import WixAuthoring.Proofs.TextFiles
