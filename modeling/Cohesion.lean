import Cohesion.Analysis
import Cohesion.Answer
import Cohesion.Clustering
import Cohesion.CommandLine
import Cohesion.CommandLine.Options
import Cohesion.CommandLine.Reader
import Cohesion.Coupling
import Cohesion.Coupling.PairReport
import Cohesion.Coupling.Traffic
import Cohesion.Decimal
import Cohesion.Decimal.Reader
import Cohesion.Decimal.Shortest
import Cohesion.Decimal.Text
import Cohesion.Dendrogram
import Cohesion.Dendrogram.View
import Cohesion.Facts
import Cohesion.Failure
import Cohesion.Files.Discovery
import Cohesion.Files.Environment
import Cohesion.Files.IgnoreRules
import Cohesion.Files.Listing
import Cohesion.Files.LogFiles
import Cohesion.Files.Path
import Cohesion.Files.Repository
import Cohesion.Files.Tree
import Cohesion.Files.UserRules
import Cohesion.Glob
import Cohesion.Glob.Expression
import Cohesion.Glob.Pattern
import Cohesion.Java.Calls
import Cohesion.Java.Declarations
import Cohesion.Java.Imports
import Cohesion.Java.Listing
import Cohesion.Java.Node
import Cohesion.Java.Scope
import Cohesion.Java.Source
import Cohesion.Java.TypeName
import Cohesion.Java.Types
import Cohesion.Json
import Cohesion.Json.Fault
import Cohesion.Json.Numeral
import Cohesion.Json.Printer
import Cohesion.Json.QuotedText
import Cohesion.Json.Reader
import Cohesion.Json.Skip
import Cohesion.Lists
import Cohesion.LogFilter
import Cohesion.Main
import Cohesion.Merge
import Cohesion.Module
import Cohesion.NamePair
import Cohesion.NameSet
import Cohesion.Program
import Cohesion.Project
import Cohesion.Proofs.Amounts
import Cohesion.Proofs.Analysis
import Cohesion.Proofs.CallCounts
import Cohesion.Proofs.Canonical
import Cohesion.Proofs.ClusterTree
import Cohesion.Proofs.Clustering
import Cohesion.Proofs.CommentCalls
import Cohesion.Proofs.CommentFacts
import Cohesion.Proofs.Comments
import Cohesion.Proofs.Coupling
import Cohesion.Proofs.CrossCalls
import Cohesion.Proofs.CutPoints
import Cohesion.Proofs.DeclaredTypes
import Cohesion.Proofs.Dendrogram
import Cohesion.Proofs.DistanceCuts
import Cohesion.Proofs.Edges
import Cohesion.Proofs.Encoding
import Cohesion.Proofs.EqualScopes
import Cohesion.Proofs.ExactLink
import Cohesion.Proofs.Extraction
import Cohesion.Proofs.FinerCuts
import Cohesion.Proofs.FiniteNumbers
import Cohesion.Proofs.FloatCount
import Cohesion.Proofs.FloatOrder
import Cohesion.Proofs.Growth
import Cohesion.Proofs.Key
import Cohesion.Proofs.Lineage
import Cohesion.Proofs.Lines
import Cohesion.Proofs.LocalScopes
import Cohesion.Proofs.LogFiles
import Cohesion.Proofs.MemberOrder
import Cohesion.Proofs.Members
import Cohesion.Proofs.Modules
import Cohesion.Proofs.NameSet
import Cohesion.Proofs.NamesInCase
import Cohesion.Proofs.NoTraffic
import Cohesion.Proofs.OneLine
import Cohesion.Proofs.PairReport
import Cohesion.Proofs.PairSums
import Cohesion.Proofs.Pairs
import Cohesion.Proofs.Partition
import Cohesion.Proofs.Places
import Cohesion.Proofs.PlainWeights
import Cohesion.Proofs.Precedence
import Cohesion.Proofs.Preference
import Cohesion.Proofs.ReadBack
import Cohesion.Proofs.Readers
import Cohesion.Proofs.ReadingOrder
import Cohesion.Proofs.Readings
import Cohesion.Proofs.ReceiverTypes
import Cohesion.Proofs.Records
import Cohesion.Proofs.Replacement
import Cohesion.Proofs.Replay
import Cohesion.Proofs.ReportedShare
import Cohesion.Proofs.RequestText
import Cohesion.Proofs.Rounding
import Cohesion.Proofs.ScopeEnds
import Cohesion.Proofs.Score
import Cohesion.Proofs.Selection
import Cohesion.Proofs.Session
import Cohesion.Proofs.SourceFiles
import Cohesion.Proofs.Stages
import Cohesion.Proofs.StaticImports
import Cohesion.Proofs.SubtreeCohesion
import Cohesion.Proofs.Subtrees
import Cohesion.Proofs.Ties
import Cohesion.Proofs.TopNodes
import Cohesion.Proofs.Topmost
import Cohesion.Proofs.Traffic
import Cohesion.Proofs.Walks
import Cohesion.Regex
import Cohesion.Regex.Atom
import Cohesion.Regex.CharSet
import Cohesion.Regex.Group
import Cohesion.Regex.Mode
import Cohesion.Regex.Nesting
import Cohesion.Request
import Cohesion.Response
import Cohesion.Score
import Cohesion.Session
import Cohesion.Settings
import Cohesion.Text.Alphabetic
import Cohesion.Text.Alphanumeric
import Cohesion.Text.Lines
import Cohesion.Text.Printable
import Cohesion.Text.Reading
import Cohesion.Text.UpperCase
import Cohesion.Toml.Document
import Cohesion.Toml.QuotedText
import Cohesion.Toml.Scalar
import Cohesion.Toml.Value
