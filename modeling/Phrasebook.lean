import Phrasebook.Catalog.Basic
import Phrasebook.Catalog.File
import Phrasebook.Catalog.Keyed
import Phrasebook.Catalog.Mint
import Phrasebook.Catalog.Text
import Phrasebook.Check
import Phrasebook.Command.Basic
import Phrasebook.Command.Run
import Phrasebook.CommandLine
import Phrasebook.Conclusion
import Phrasebook.Config
import Phrasebook.Credentials
import Phrasebook.Disk
import Phrasebook.Entry
import Phrasebook.Extraction
import Phrasebook.Glob
import Phrasebook.Help
import Phrasebook.Ignore
import Phrasebook.Issue
import Phrasebook.Json.Decode
import Phrasebook.Json.Fault
import Phrasebook.Json.Parse
import Phrasebook.Json.Reader
import Phrasebook.Json.Value
import Phrasebook.Lookup
import Phrasebook.Main
import Phrasebook.Number.Basic
import Phrasebook.Number.Notation
import Phrasebook.Number.Read
import Phrasebook.Number.Shortest
import Phrasebook.Path
import Phrasebook.Plural.Basic
import Phrasebook.Plural.Normalize
import Phrasebook.Project
import Phrasebook.Proofs.Catalog.Entries
import Phrasebook.Proofs.Catalog.File
import Phrasebook.Proofs.Catalog.Furnished
import Phrasebook.Proofs.Catalog.Index
import Phrasebook.Proofs.Catalog.Mint
import Phrasebook.Proofs.Catalog.Nested
import Phrasebook.Proofs.Catalog.Room
import Phrasebook.Proofs.Catalog.RoundTrip
import Phrasebook.Proofs.Catalog.Saved
import Phrasebook.Proofs.Check.DryRun
import Phrasebook.Proofs.Check.Lookups
import Phrasebook.Proofs.Check.Run
import Phrasebook.Proofs.Command.Failed
import Phrasebook.Proofs.Command.ReadOnly
import Phrasebook.Proofs.CommandLine.Flags
import Phrasebook.Proofs.Disk.Folder
import Phrasebook.Proofs.Disk.Frame
import Phrasebook.Proofs.Disk.Tree
import Phrasebook.Proofs.Extraction.Dry
import Phrasebook.Proofs.Extraction.Loss
import Phrasebook.Proofs.Extraction.Predicted
import Phrasebook.Proofs.Extraction.Run
import Phrasebook.Proofs.Extraction.Visit
import Phrasebook.Proofs.Extraction.Writes
import Phrasebook.Proofs.Glob.Ending
import Phrasebook.Proofs.Ignore.Below
import Phrasebook.Proofs.Json.Blank
import Phrasebook.Proofs.Json.Members
import Phrasebook.Proofs.Json.Quoted
import Phrasebook.Proofs.Lookup.Braces
import Phrasebook.Proofs.Lookup.Choose
import Phrasebook.Proofs.Lookup.Faithful
import Phrasebook.Proofs.Lookup.Fill
import Phrasebook.Proofs.Lookup.Independent
import Phrasebook.Proofs.Lookup.Resolve
import Phrasebook.Proofs.Number.Whole
import Phrasebook.Proofs.Path.Name
import Phrasebook.Proofs.Path.Parent
import Phrasebook.Proofs.Path.Specifier
import Phrasebook.Proofs.Plural.Braces
import Phrasebook.Proofs.Plural.Edges
import Phrasebook.Proofs.Plural.Found
import Phrasebook.Proofs.Plural.Rendered
import Phrasebook.Proofs.Plural.Reprinted
import Phrasebook.Proofs.Plural.Restored
import Phrasebook.Proofs.Plural.Suffixes
import Phrasebook.Proofs.Scan.Sources
import Phrasebook.Proofs.Session.Alike
import Phrasebook.Proofs.Session.Depth
import Phrasebook.Proofs.Session.Directories
import Phrasebook.Proofs.Session.Log
import Phrasebook.Proofs.Session.Settled
import Phrasebook.Proofs.Session.Steady
import Phrasebook.Proofs.Session.Step
import Phrasebook.Proofs.Source.Again
import Phrasebook.Proofs.Source.Assignment
import Phrasebook.Proofs.Source.Bindings
import Phrasebook.Proofs.Source.Block
import Phrasebook.Proofs.Source.Candidates
import Phrasebook.Proofs.Source.CatalogImports
import Phrasebook.Proofs.Source.Choice
import Phrasebook.Proofs.Source.Conversion
import Phrasebook.Proofs.Source.Dangling
import Phrasebook.Proofs.Source.Directives
import Phrasebook.Proofs.Source.Edits
import Phrasebook.Proofs.Source.History
import Phrasebook.Proofs.Source.HookSites
import Phrasebook.Proofs.Source.Imports
import Phrasebook.Proofs.Source.InPlace
import Phrasebook.Proofs.Source.Initializer
import Phrasebook.Proofs.Source.Kept
import Phrasebook.Proofs.Source.Keys
import Phrasebook.Proofs.Source.Layout
import Phrasebook.Proofs.Source.Literal
import Phrasebook.Proofs.Source.Locales
import Phrasebook.Proofs.Source.Places
import Phrasebook.Proofs.Source.References
import Phrasebook.Proofs.Source.Registration
import Phrasebook.Proofs.Source.Rendered
import Phrasebook.Proofs.Source.SameKey
import Phrasebook.Proofs.Source.Scope
import Phrasebook.Proofs.Source.Sites
import Phrasebook.Proofs.Source.Splice
import Phrasebook.Proofs.Source.Untouched
import Phrasebook.Proofs.Store.History
import Phrasebook.Proofs.Sync.Again
import Phrasebook.Proofs.Sync.Batch
import Phrasebook.Proofs.Sync.BatchSize
import Phrasebook.Proofs.Sync.Catalogs
import Phrasebook.Proofs.Sync.Isolated
import Phrasebook.Proofs.Sync.Locale
import Phrasebook.Proofs.Sync.Turns
import Phrasebook.Proofs.Text.Blank
import Phrasebook.Proofs.Text.Offset
import Phrasebook.Proofs.Text.Relaid
import Phrasebook.Proofs.Text.Shown
import Phrasebook.Proofs.Text.Stored
import Phrasebook.Provider
import Phrasebook.Report
import Phrasebook.Rule
import Phrasebook.Scan
import Phrasebook.Session
import Phrasebook.Source.Collect
import Phrasebook.Source.Conversion
import Phrasebook.Source.Edit
import Phrasebook.Source.Inject
import Phrasebook.Source.Layout
import Phrasebook.Store
import Phrasebook.Sync
import Phrasebook.Syntax.Entity
import Phrasebook.Syntax.Grammar.Annotation
import Phrasebook.Syntax.Grammar.Expression
import Phrasebook.Syntax.Grammar.Function
import Phrasebook.Syntax.Grammar.Item
import Phrasebook.Syntax.Grammar.Markup
import Phrasebook.Syntax.Grammar.Pattern
import Phrasebook.Syntax.Grammar.Statement
import Phrasebook.Syntax.Module
import Phrasebook.Syntax.Node
import Phrasebook.Syntax.Reader
import Phrasebook.Syntax.Token
import Phrasebook.Terminal
import Phrasebook.Text.Capital
import Phrasebook.Text.Category
import Phrasebook.Text.Field
import Phrasebook.Text.Letter
import Phrasebook.Text.Line
import Phrasebook.Text.Offset
import Phrasebook.Text.Printable
import Phrasebook.Text.Quoted
import Phrasebook.Warning
