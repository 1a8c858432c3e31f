import CodeAtlas.Calls.Reexport
import CodeAtlas.Calls.Resolve
import CodeAtlas.Calls.Site
import CodeAtlas.Command.Execute
import CodeAtlas.Command.Invocation
import CodeAtlas.Command.Options
import CodeAtlas.Config.Basic
import CodeAtlas.Config.File
import CodeAtlas.Config.Toml
import CodeAtlas.Data.Dict
import CodeAtlas.Digest.Sha256
import CodeAtlas.Engine.Link
import CodeAtlas.Engine.Run
import CodeAtlas.Engine.Scan
import CodeAtlas.Error
import CodeAtlas.Extract.Class
import CodeAtlas.Extract.Flag
import CodeAtlas.Extract.Function
import CodeAtlas.Extract.Import
import CodeAtlas.Extract.Invariant
import CodeAtlas.Extract.Module
import CodeAtlas.Files.Cache
import CodeAtlas.Files.Disk
import CodeAtlas.Files.Filter
import CodeAtlas.Files.Glob
import CodeAtlas.Files.Ignore
import CodeAtlas.Files.Walk
import CodeAtlas.Grammar.Automaton
import CodeAtlas.Grammar.Item
import CodeAtlas.Grammar.Parser
import CodeAtlas.Grammar.Rule
import CodeAtlas.Grammar.Table
import CodeAtlas.Grammar.Tree
import CodeAtlas.Main
import CodeAtlas.Module.Analysis
import CodeAtlas.Module.Index
import CodeAtlas.Module.Language
import CodeAtlas.Module.Path
import CodeAtlas.Module.Record
import CodeAtlas.Module.Validate
import CodeAtlas.Python.Definition
import CodeAtlas.Python.Grammar
import CodeAtlas.Python.Identifier
import CodeAtlas.Python.Lexer
import CodeAtlas.Python.Literal
import CodeAtlas.Python.Name
import CodeAtlas.Python.Node
import CodeAtlas.Python.Parse
import CodeAtlas.Python.Token
import CodeAtlas.Python.Walk
import CodeAtlas.Report.Encode
import CodeAtlas.Report.Json
import CodeAtlas.Text.CharSet
import CodeAtlas.Text.Letter
import CodeAtlas.Text.Split
import CodeAtlas.Text.Utf8
import CodeAtlas.Toml.Datetime
import CodeAtlas.Toml.Document
import CodeAtlas.Toml.Gap
import CodeAtlas.Toml.Number
import CodeAtlas.Toml.Printer
import CodeAtlas.Toml.Quoted
import CodeAtlas.Toml.Reader
import CodeAtlas.Toml.Value
import CodeAtlas.Proofs.Consistency
import CodeAtlas.Proofs.DictLaws
import CodeAtlas.Proofs.Scanned
import CodeAtlas.Proofs.Resolution
import CodeAtlas.Proofs.Linked
import CodeAtlas.Proofs.Ownership
import CodeAtlas.Proofs.Containment
import CodeAtlas.Proofs.DottedName
import CodeAtlas.Proofs.Offers
import CodeAtlas.Proofs.ImportStyle
import CodeAtlas.Proofs.Places
import CodeAtlas.Proofs.Reading
import CodeAtlas.Proofs.Schedule
import CodeAtlas.Proofs.PathOrder
import CodeAtlas.Proofs.Identity
import CodeAtlas.Proofs.Isolation
import CodeAtlas.Proofs.Retention
import CodeAtlas.Proofs.Snapshot
import CodeAtlas.Proofs.Recency
import CodeAtlas.Proofs.Relinking
import CodeAtlas.Proofs.WrittenText
import CodeAtlas.Proofs.WrittenValue
import CodeAtlas.Proofs.WrittenTables
import CodeAtlas.Proofs.WrittenSettings
import CodeAtlas.Proofs.IntegerRange
import CodeAtlas.Proofs.WrittenFile
import CodeAtlas.Proofs.Mirrored
import CodeAtlas.Proofs.Trail
import CodeAtlas.Proofs.Accessors
import CodeAtlas.Proofs.Attribution
import CodeAtlas.Proofs.ScopeRule
import CodeAtlas.Proofs.IndexSearch
import CodeAtlas.Proofs.RelativeImport
import CodeAtlas.Proofs.AddedModules
import CodeAtlas.Proofs.OfferTable
import CodeAtlas.Proofs.Selection
import CodeAtlas.Proofs.Listings
import CodeAtlas.Proofs.BrokenRules
import CodeAtlas.Proofs.RaisedNames
