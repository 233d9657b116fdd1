import PropCatalog.Command.Arguments
import PropCatalog.Command.Inspection
import PropCatalog.Command.Run
import PropCatalog.Component.Alias
import PropCatalog.Component.Registry
import PropCatalog.Component.Shape
import PropCatalog.Component.StaticFields
import PropCatalog.Component.Survey
import PropCatalog.Decimal.Binary64
import PropCatalog.Decimal.Shortest
import PropCatalog.Files.Disk
import PropCatalog.Files.Expand
import PropCatalog.Files.Glob
import PropCatalog.Files.Path
import PropCatalog.Files.Scan
import PropCatalog.Json.Fault
import PropCatalog.Json.Lexeme
import PropCatalog.Json.Number
import PropCatalog.Json.Reading
import PropCatalog.Json.Value
import PropCatalog.Main
import PropCatalog.Metadata.Attach
import PropCatalog.Metadata.Build
import PropCatalog.Metadata.FreshName
import PropCatalog.Metadata.Library
import PropCatalog.Metadata.Retarget
import PropCatalog.Metadata.Splice
import PropCatalog.Metadata.Statement
import PropCatalog.Options
import PropCatalog.Settings.Basic
import PropCatalog.Settings.Check
import PropCatalog.Settings.Decode
import PropCatalog.Settings.Locate
import PropCatalog.Source.Attach
import PropCatalog.Source.Dialect
import PropCatalog.Source.Grammar.Binding
import PropCatalog.Source.Grammar.Expression
import PropCatalog.Source.Grammar.Goal
import PropCatalog.Source.Grammar.Markup
import PropCatalog.Source.Grammar.Module
import PropCatalog.Source.Grammar.Statement
import PropCatalog.Source.Layout
import PropCatalog.Source.Reader
import PropCatalog.Source.Token
import PropCatalog.Text.Ascending
import PropCatalog.Text.Blank
import PropCatalog.Text.Name
import PropCatalog.Text.Shown
import PropCatalog.Tree.Basic
import PropCatalog.Tree.Encoding
import PropCatalog.Tree.Identifiers
import PropCatalog.Tree.Kind
import PropCatalog.Tree.Nodes
import PropCatalog.Proofs.Registry
import PropCatalog.Proofs.StaticFields
import PropCatalog.Proofs.Survey
import PropCatalog.Proofs.Attach
import PropCatalog.Proofs.Evaluation
import PropCatalog.Proofs.Validator
import PropCatalog.Proofs.Relabeling
import PropCatalog.Proofs.Erasure
import PropCatalog.Proofs.Properties
import PropCatalog.Proofs.Identifiers
import PropCatalog.Proofs.Description
import PropCatalog.Proofs.SecondRun
import PropCatalog.Proofs.Histories
import PropCatalog.Proofs.Positions
import PropCatalog.Proofs.Renaming
import PropCatalog.Proofs.ValidNames
import PropCatalog.Proofs.Marking
import PropCatalog.Proofs.Readable
import PropCatalog.Proofs.Unreadable
import PropCatalog.Proofs.Paths
import PropCatalog.Proofs.Places
import PropCatalog.Proofs.Writing
import PropCatalog.Proofs.Scanning
import PropCatalog.Proofs.Delivery
import PropCatalog.Proofs.Targets
import PropCatalog.Proofs.NormalForm
import PropCatalog.Proofs.Recovery
import PropCatalog.Proofs.Confinement
import PropCatalog.Proofs.Discovery
import PropCatalog.Proofs.Keys
import PropCatalog.Proofs.NameSearch
import PropCatalog.Proofs.NameFamilies
import PropCatalog.Proofs.Resolution
import PropCatalog.Proofs.Ancestors
import PropCatalog.Proofs.Initialization
import PropCatalog.Proofs.Patterns
import PropCatalog.Proofs.Globbing
import PropCatalog.Proofs.Includes
import PropCatalog.Proofs.Printing
import PropCatalog.Proofs.Records
