import HandlerComplexity.Base64
import HandlerComplexity.Calendar
import HandlerComplexity.ClassUnit
import HandlerComplexity.Collect
import HandlerComplexity.Command.Arguments
import HandlerComplexity.Command.Run
import HandlerComplexity.Config
import HandlerComplexity.ConfigFile
import HandlerComplexity.Csv
import HandlerComplexity.Discovery
import HandlerComplexity.Document
import HandlerComplexity.Extract
import HandlerComplexity.Json.Read
import HandlerComplexity.Json.Write
import HandlerComplexity.Language
import HandlerComplexity.Log
import HandlerComplexity.Main
import HandlerComplexity.Measure
import HandlerComplexity.Number.Binary64
import HandlerComplexity.Number.Digits
import HandlerComplexity.Number.Fixed
import HandlerComplexity.Number.Numeral
import HandlerComplexity.Number.Shortest
import HandlerComplexity.PartialClass
import HandlerComplexity.Path
import HandlerComplexity.Policy
import HandlerComplexity.Report
import HandlerComplexity.Scan
import HandlerComplexity.Source.Cst
import HandlerComplexity.Source.File
import HandlerComplexity.Source.Module
import HandlerComplexity.Source.Tree
import HandlerComplexity.Source.Units
import HandlerComplexity.Store
import HandlerComplexity.Store.Backend
import HandlerComplexity.Text.Blank
import HandlerComplexity.Text.DecimalDigit
import HandlerComplexity.Text.Glob
import HandlerComplexity.Text.Lines
import HandlerComplexity.Text.Point
import HandlerComplexity.Text.Printable
import HandlerComplexity.Text.Quoted
import HandlerComplexity.Text.Ranges
import HandlerComplexity.Text.Search
import HandlerComplexity.Text.UpperCase
import HandlerComplexity.Text.Utf8
import HandlerComplexity.Text.WordChar
import HandlerComplexity.Tree.Kind
import HandlerComplexity.Tree.Node
import HandlerComplexity.Tree.Outline
import HandlerComplexity.Tree.Score
import HandlerComplexity.Tree.Table
import HandlerComplexity.Workspace
import HandlerComplexity.Yaml.Cursor
import HandlerComplexity.Yaml.Kind
import HandlerComplexity.Yaml.Node
import HandlerComplexity.Yaml.Text
import HandlerComplexity.Yaml.Timestamp
import HandlerComplexity.Yaml.Token
import HandlerComplexity.Yaml.Value
import HandlerComplexity.Proofs.Accounting
import HandlerComplexity.Proofs.Alike
import HandlerComplexity.Proofs.Attribution
import HandlerComplexity.Proofs.Building
import HandlerComplexity.Proofs.Calls
import HandlerComplexity.Proofs.CaseOwner
import HandlerComplexity.Proofs.Checkout
import HandlerComplexity.Proofs.Collect
import HandlerComplexity.Proofs.Collision
import HandlerComplexity.Proofs.Comments
import HandlerComplexity.Proofs.Directory
import HandlerComplexity.Proofs.Discovery
import HandlerComplexity.Proofs.ElseIf
import HandlerComplexity.Proofs.Extractors
import HandlerComplexity.Proofs.FailFast
import HandlerComplexity.Proofs.FirstWins
import HandlerComplexity.Proofs.Grammar
import HandlerComplexity.Proofs.KeyPath
import HandlerComplexity.Proofs.Keys
import HandlerComplexity.Proofs.Layers
import HandlerComplexity.Proofs.LocalClass
import HandlerComplexity.Proofs.NamedNodes
import HandlerComplexity.Proofs.Naming
import HandlerComplexity.Proofs.Nesting
import HandlerComplexity.Proofs.Overlay
import HandlerComplexity.Proofs.Parts
import HandlerComplexity.Proofs.Path
import HandlerComplexity.Proofs.QualifiedName
import HandlerComplexity.Proofs.ReadBack
import HandlerComplexity.Proofs.Reading
import HandlerComplexity.Proofs.Records
import HandlerComplexity.Proofs.Rejection
import HandlerComplexity.Proofs.Relocation
import HandlerComplexity.Proofs.Renaming
import HandlerComplexity.Proofs.Rescan
import HandlerComplexity.Proofs.Rounding
import HandlerComplexity.Proofs.Scan
import HandlerComplexity.Proofs.Schedule
import HandlerComplexity.Proofs.Score
import HandlerComplexity.Proofs.Settings
import HandlerComplexity.Proofs.Shape
import HandlerComplexity.Proofs.SimpleName
import HandlerComplexity.Proofs.Site
import HandlerComplexity.Proofs.Sort
import HandlerComplexity.Proofs.Split
import HandlerComplexity.Proofs.Steps
import HandlerComplexity.Proofs.Store
import HandlerComplexity.Proofs.Strip
import HandlerComplexity.Proofs.Tightening
import HandlerComplexity.Proofs.Tokens
import HandlerComplexity.Proofs.Tree
import HandlerComplexity.Proofs.Union
import HandlerComplexity.Proofs.Walk
import HandlerComplexity.Proofs.Workspace
