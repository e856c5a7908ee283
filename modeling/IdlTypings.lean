import IdlTypings.CommandLine.Basic
import IdlTypings.CommandLine.Outcome
import IdlTypings.Decimal.Shortest
import IdlTypings.Declare.Basic
import IdlTypings.Declare.Diagnostic
import IdlTypings.Declare.TypeNames
import IdlTypings.Dialect.Basic
import IdlTypings.Dialect.Emscripten
import IdlTypings.Dialect.Gecko
import IdlTypings.Files.Basic
import IdlTypings.Files.Path
import IdlTypings.Files.Tree
import IdlTypings.Grammar.Document
import IdlTypings.Grammar.Form
import IdlTypings.Grammar.Lowering
import IdlTypings.Grammar.Source
import IdlTypings.Grammar.Token
import IdlTypings.Grammar.Type
import IdlTypings.Idl.Basic
import IdlTypings.Idl.OfJson
import IdlTypings.Idl.ToJson
import IdlTypings.Json.Basic
import IdlTypings.Json.Decode
import IdlTypings.Json.Fault
import IdlTypings.Json.Number
import IdlTypings.Json.Reader
import IdlTypings.Main
import IdlTypings.Settings.Basic
import IdlTypings.Settings.Toml
import IdlTypings.Text.Parser
import IdlTypings.Text.Printable
import IdlTypings.Text.Ranges
import IdlTypings.Text.Scan
import IdlTypings.Text.Space
import IdlTypings.Text.Word
import IdlTypings.TypeScript.Basic
import IdlTypings.TypeScript.Module
import IdlTypings.TypeScript.Printer
import IdlTypings.Typings.Basic
import IdlTypings.Typings.Run
import IdlTypings.Proofs.AccessorMode
import IdlTypings.Proofs.ArrayAttributes
import IdlTypings.Proofs.BorderGrammar
import IdlTypings.Proofs.CommentLines
import IdlTypings.Proofs.ComponentReading
import IdlTypings.Proofs.ComponentText
import IdlTypings.Proofs.DeclarationBlocks
import IdlTypings.Proofs.DeclarationLines
import IdlTypings.Proofs.DirectionMarks
import IdlTypings.Proofs.DirectiveLines
import IdlTypings.Proofs.DocumentAppend
import IdlTypings.Proofs.DocumentRoundTrip
import IdlTypings.Proofs.FileTrees
import IdlTypings.Proofs.FrozenArrays
import IdlTypings.Proofs.ImplementationStatements
import IdlTypings.Proofs.ImplementedParents
import IdlTypings.Proofs.InterfaceHeads
import IdlTypings.Proofs.JsonGrammar
import IdlTypings.Proofs.JsonNodes
import IdlTypings.Proofs.JsonText
import IdlTypings.Proofs.LeftoverExcerpts
import IdlTypings.Proofs.MissingDirectories
import IdlTypings.Proofs.ModuleLines
import IdlTypings.Proofs.NameClashes
import IdlTypings.Proofs.NestedArrays
import IdlTypings.Proofs.NodeFields
import IdlTypings.Proofs.Omissions
import IdlTypings.Proofs.OutputBeside
import IdlTypings.Proofs.ParserRules
import IdlTypings.Proofs.PartialDefinitions
import IdlTypings.Proofs.PlainBodies
import IdlTypings.Proofs.PreludeKept
import IdlTypings.Proofs.PrinterUnambiguous
import IdlTypings.Proofs.Remainders
import IdlTypings.Proofs.Reports
import IdlTypings.Proofs.RunFrame
import IdlTypings.Proofs.SettingsFiles
import IdlTypings.Proofs.SpelledTokens
import IdlTypings.Proofs.StatementBorder
import IdlTypings.Proofs.StatementBounds
import IdlTypings.Proofs.StatementLayouts
import IdlTypings.Proofs.SteadyGrammar
import IdlTypings.Proofs.StringLiterals
import IdlTypings.Proofs.TerminalForms
import IdlTypings.Proofs.TextEdits
import IdlTypings.Proofs.TreeEdits
import IdlTypings.Proofs.TreeRoundTrip
import IdlTypings.Proofs.TreeShapes
import IdlTypings.Proofs.TreeText
import IdlTypings.Proofs.TypeNormalForm
import IdlTypings.Proofs.UnionSizes
import IdlTypings.Proofs.WrittenMembers
import IdlTypings.Proofs.WrittenTypes
