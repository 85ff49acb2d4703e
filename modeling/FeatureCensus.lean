import FeatureCensus.Analysis.Analyzer
import FeatureCensus.Analysis.Recording
import FeatureCensus.Analysis.SourceFiles
import FeatureCensus.Association
import FeatureCensus.Binary
import FeatureCensus.CommandLine.Help
import FeatureCensus.CommandLine.Options
import FeatureCensus.CommandLine.Program
import FeatureCensus.Corpus.Corpus
import FeatureCensus.Corpus.Git
import FeatureCensus.Corpus.Repo
import FeatureCensus.Count.Catalog
import FeatureCensus.Count.Counter
import FeatureCensus.Count.PlaceName
import FeatureCensus.Count.Repeats
import FeatureCensus.Count.Session
import FeatureCensus.Decimal
import FeatureCensus.EntryList
import FeatureCensus.Files.FileTree
import FeatureCensus.Files.Glob
import FeatureCensus.Files.NamePattern
import FeatureCensus.Files.Path
import FeatureCensus.Json.Display
import FeatureCensus.Json.Reader
import FeatureCensus.Json.Scalar
import FeatureCensus.Json.Value
import FeatureCensus.Json.Writer
import FeatureCensus.LineIndex
import FeatureCensus.Main
import FeatureCensus.Numeral
import FeatureCensus.Proofs.Positions
import FeatureCensus.Proofs.Syntax.Conversion
import FeatureCensus.Proofs.Syntax.Outline
import FeatureCensus.Relational.Change
import FeatureCensus.Relational.Check
import FeatureCensus.Relational.Definition
import FeatureCensus.Relational.Evaluate
import FeatureCensus.Relational.Expression
import FeatureCensus.Relational.Operator
import FeatureCensus.Relational.Parser
import FeatureCensus.Relational.Selection
import FeatureCensus.Relational.Store
import FeatureCensus.Relational.Token
import FeatureCensus.Relational.Value
import FeatureCensus.Results.Address
import FeatureCensus.Results.Database
import FeatureCensus.Results.DatabaseError
import FeatureCensus.Results.Image
import FeatureCensus.Results.Layout
import FeatureCensus.Results.Record
import FeatureCensus.Results.Report
import FeatureCensus.Results.Saving
import FeatureCensus.Results.Schema
import FeatureCensus.Results.Tables
import FeatureCensus.Rules.KotlinCatalog
import FeatureCensus.Rules.KotlinRules
import FeatureCensus.Rules.Members
import FeatureCensus.Rules.Rule
import FeatureCensus.Search.Discovery
import FeatureCensus.Search.Page
import FeatureCensus.Search.Pursuit
import FeatureCensus.Search.Source
import FeatureCensus.Search.Status
import FeatureCensus.Snapshot.Parse
import FeatureCensus.Snapshot.Surroundings
import FeatureCensus.Survey.Exclusion
import FeatureCensus.Survey.Survey
import FeatureCensus.Syntax.Classify
import FeatureCensus.Syntax.Draft
import FeatureCensus.Syntax.Element
import FeatureCensus.Syntax.Markup
import FeatureCensus.Syntax.Normalize
import FeatureCensus.Syntax.Token
import FeatureCensus.Text.Blank
import FeatureCensus.Text.Digit
import FeatureCensus.Text.Encoding
import FeatureCensus.Text.FormEncoding
import FeatureCensus.Text.Hexadecimal
import FeatureCensus.Text.Integer
import FeatureCensus.Text.Printable
import FeatureCensus.Text.Quoted
import FeatureCensus.Text.Reference
import FeatureCensus.Text.Split
import FeatureCensus.Text.Utf8
import FeatureCensus.Tree
import FeatureCensus.World.Action
import FeatureCensus.World.Event
import FeatureCensus.World.Failure
import FeatureCensus.World.World
import FeatureCensus.Proofs.Counting.Features
import FeatureCensus.Proofs.Counting.Recording
import FeatureCensus.Proofs.Syntax.Kinds
import FeatureCensus.Proofs.Text.Numerals
import FeatureCensus.Proofs.Counting.ParserTrees
import FeatureCensus.Proofs.World.Milestones
import FeatureCensus.Proofs.Corpus.Copies
import FeatureCensus.Proofs.Analysis.Projects
import FeatureCensus.Proofs.Results.Saving
import FeatureCensus.Proofs.Survey.Runs
import FeatureCensus.Proofs.Counting.Entries
import FeatureCensus.Proofs.Counting.Breakdowns
import FeatureCensus.Proofs.Search.Pages
import FeatureCensus.Proofs.Corpus.Commands
import FeatureCensus.Proofs.Corpus.Upkeep
import FeatureCensus.Proofs.Counting.Merging
import FeatureCensus.Proofs.Analysis.Calls
import FeatureCensus.Proofs.Analysis.Places
import FeatureCensus.Proofs.Bisection
import FeatureCensus.Proofs.Lines
import FeatureCensus.Proofs.Counting.SourceOrder
import FeatureCensus.Proofs.Relational.Deletion
import FeatureCensus.Proofs.Relational.Insertion
import FeatureCensus.Proofs.Relational.Queries
import FeatureCensus.Proofs.Results.Layouts
import FeatureCensus.Proofs.Results.Replacing
import FeatureCensus.Proofs.Results.Preparing
import FeatureCensus.Proofs.Results.Answers
import FeatureCensus.Proofs.Results.Sessions
import FeatureCensus.Proofs.Syntax.Resemblance
import FeatureCensus.Proofs.Syntax.Wrappers
import FeatureCensus.Proofs.Analysis.Inspection
import FeatureCensus.Proofs.Counting.Attributes
import FeatureCensus.Proofs.Counting.Comments
import FeatureCensus.Proofs.Files.SoundChanges
import FeatureCensus.Proofs.Search.Totals
import FeatureCensus.Proofs.Files.Ways
import FeatureCensus.Proofs.Files.Growth
import FeatureCensus.Proofs.Corpus.Locations
import FeatureCensus.Proofs.Corpus.Remains
import FeatureCensus.Proofs.Corpus.Operations
import FeatureCensus.Proofs.Corpus.Histories
import FeatureCensus.Proofs.Files.Removal
import FeatureCensus.Proofs.Syntax.Legality
import FeatureCensus.Proofs.Analysis.Isolation
import FeatureCensus.Proofs.World.Turns
import FeatureCensus.Proofs.Corpus.Handovers
import FeatureCensus.Proofs.Files.Contents
import FeatureCensus.Proofs.Corpus.Sparing
import FeatureCensus.Proofs.Survey.Visits
import FeatureCensus.Proofs.Survey.Endings
import FeatureCensus.Proofs.Survey.Caps
import FeatureCensus.Proofs.Survey.LocalRuns
import FeatureCensus.Proofs.Analysis.Moving
import FeatureCensus.Proofs.Search.Stopping
import FeatureCensus.Proofs.Search.Acceptance
import FeatureCensus.Proofs.Syntax.Accessors
import FeatureCensus.Proofs.World.Observing
import FeatureCensus.Proofs.Survey.Repetition
import FeatureCensus.Proofs.Corpus.Naming
import FeatureCensus.Proofs.Corpus.Enclosure
import FeatureCensus.Proofs.Counting.Jumps
import FeatureCensus.Proofs.Survey.Exclusions
import FeatureCensus.Proofs.Files.TestData
import FeatureCensus.Proofs.Counting.Walks
import FeatureCensus.Proofs.Results.Reports
import FeatureCensus.Proofs.Counting.Members
import FeatureCensus.Proofs.Counting.Repeats
import FeatureCensus.Proofs.CommandLine.Spellings
import FeatureCensus.Proofs.EntryLists
