import SchemaForge.Artifacts
import SchemaForge.Command.Arguments
import SchemaForge.Command.Basic
import SchemaForge.Command.Run
import SchemaForge.Compilation
import SchemaForge.DataCheck
import SchemaForge.Declaration.Basic
import SchemaForge.Declaration.Catalog
import SchemaForge.Declaration.Grammar
import SchemaForge.Declaration.Reading
import SchemaForge.Declaration.Skipping
import SchemaForge.Declaration.TypeGrammar
import SchemaForge.Emission.Expression
import SchemaForge.Emission.Module
import SchemaForge.Emission.Order
import SchemaForge.Failure
import SchemaForge.Files.Disk
import SchemaForge.Files.FileStore
import SchemaForge.Files.PathName
import SchemaForge.Generation
import SchemaForge.Json.Basic
import SchemaForge.Json.Numeral
import SchemaForge.Json.Reader
import SchemaForge.Json.Writer
import SchemaForge.Main
import SchemaForge.Number.Binary64
import SchemaForge.Number.Layout
import SchemaForge.Number.Numeral
import SchemaForge.Number.Shortest
import SchemaForge.OrderedMap
import SchemaForge.Policy
import SchemaForge.Proofs.BuiltArtifacts
import SchemaForge.Proofs.Conformance
import SchemaForge.Proofs.DeclarationReading
import SchemaForge.Proofs.Demands
import SchemaForge.Proofs.ExportedTypes
import SchemaForge.Proofs.LexedText
import SchemaForge.Proofs.OrderedMap
import SchemaForge.Proofs.PrintedTokens
import SchemaForge.Proofs.Printing
import SchemaForge.Proofs.ReaderRules
import SchemaForge.Proofs.RevisionHistory
import SchemaForge.Proofs.TypeLookahead
import SchemaForge.Proofs.TypeReading
import SchemaForge.Proofs.WholeNumbers
import SchemaForge.Revision
import SchemaForge.Schema.Basic
import SchemaForge.Schema.Check
import SchemaForge.Schema.OfDeclaration
import SchemaForge.Schema.OfType
import SchemaForge.Settings.Basic
import SchemaForge.Settings.Decoding
import SchemaForge.Settings.Document
import SchemaForge.Settings.File
import SchemaForge.Source.Lexeme
import SchemaForge.Source.Token
import SchemaForge.Text.Blank
import SchemaForge.Text.CodeRanges
import SchemaForge.Text.DateTime
import SchemaForge.Text.Hexadecimal
import SchemaForge.Text.Letter
import SchemaForge.Text.LowerCase
import SchemaForge.Text.Numeral
import SchemaForge.Text.Quoted
import SchemaForge.Text.Visible
import SchemaForge.Toml.Item
import SchemaForge.Toml.Reader
import SchemaForge.Toml.Scalar
import SchemaForge.Toml.Text
import SchemaForge.Violation
import SchemaForge.Warning
import SchemaForge.Watch
import SchemaForge.Proofs.AliasUnfolding
import SchemaForge.Proofs.ReachableDeclarations
import SchemaForge.Proofs.ReadingProgress
import SchemaForge.Proofs.ReadingAlike
import SchemaForge.Proofs.GrammarAlike
import SchemaForge.Proofs.ScanSteps
import SchemaForge.Proofs.RevisedMembers
import SchemaForge.Proofs.UnsupportedMembers
import SchemaForge.Proofs.UnsupportedTypes
import SchemaForge.Proofs.ReferenceLimit
import SchemaForge.Proofs.ServedTypes
import SchemaForge.Proofs.DependencyOrder
import SchemaForge.Proofs.LexedPieces
import SchemaForge.Proofs.EmittedCode
import SchemaForge.Proofs.ModuleTokens
import SchemaForge.Proofs.EmittedModule
import SchemaForge.Proofs.GrammarForms
import SchemaForge.Proofs.FormReading
import SchemaForge.Proofs.BracketRules
import SchemaForge.Proofs.BodyBrackets
import SchemaForge.Proofs.CircularTypes
import SchemaForge.Proofs.ReportedUnknowns
import SchemaForge.Proofs.CheckedPayloads
import SchemaForge.Proofs.ManagedNames
import SchemaForge.Proofs.DependenciesFirst
import SchemaForge.Proofs.TokenPlaces
import SchemaForge.Proofs.ForeignCode
import SchemaForge.Proofs.ViolationPlaces
import SchemaForge.Proofs.DocumentPaths
import SchemaForge.Proofs.DiskChanges
import SchemaForge.Proofs.GeneratedFiles
import SchemaForge.Proofs.CombinedPatches
import SchemaForge.Proofs.CheckingWalk
import SchemaForge.Proofs.NestedViolations
import SchemaForge.Proofs.ReadingBack
import SchemaForge.Proofs.ExpressionReading
import SchemaForge.Proofs.ModuleReading
import SchemaForge.Proofs.UnchangedSchemas
import SchemaForge.Proofs.GroupedViolations
import SchemaForge.Proofs.TiledSource
import SchemaForge.Proofs.CheckedDataFiles
import SchemaForge.Proofs.ComparedReports
import SchemaForge.Proofs.KeyOrder
import SchemaForge.Proofs.KeptReferences
import SchemaForge.Proofs.TakenTokens
import SchemaForge.Proofs.EndingLoops
import SchemaForge.Proofs.ScanProgress
