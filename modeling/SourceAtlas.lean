import SourceAtlas.Command.Arguments
import SourceAtlas.Command.Run
import SourceAtlas.Command.Usage
import SourceAtlas.Embedding.Client
import SourceAtlas.Embedding.Exchange
import SourceAtlas.Files.Change
import SourceAtlas.Files.Walk
import SourceAtlas.Index.Pool
import SourceAtlas.Index.Tree
import SourceAtlas.Json.Read
import SourceAtlas.Json.Write
import SourceAtlas.Main
import SourceAtlas.Reference.Aggregate
import SourceAtlas.Reference.Extract
import SourceAtlas.Search.Search
import SourceAtlas.Session.Basic
import SourceAtlas.Session.History
import SourceAtlas.Settings.Basic
import SourceAtlas.Settings.Load
import SourceAtlas.Store.Open
import SourceAtlas.Store.Outside
import SourceAtlas.Store.Read
import SourceAtlas.Store.Write
import SourceAtlas.Text.Digest
import SourceAtlas.Text.Lines
import SourceAtlas.Vector.Cosine
import SourceAtlas.Vector.Single
import SourceAtlas.Yaml.Read
import SourceAtlas.Proofs.Embedding.Address
import SourceAtlas.Proofs.Embedding.Client
import SourceAtlas.Proofs.Files.Overwrite
import SourceAtlas.Proofs.Files.Reach
import SourceAtlas.Proofs.Files.Walk
import SourceAtlas.Proofs.Index.Document
import SourceAtlas.Proofs.Index.Effect
import SourceAtlas.Proofs.Index.Pool
import SourceAtlas.Proofs.Index.Preparation
import SourceAtlas.Proofs.Index.Tally
import SourceAtlas.Proofs.Index.Verdict
import SourceAtlas.Proofs.Json.Depth
import SourceAtlas.Proofs.Number.Order
import SourceAtlas.Proofs.Number.Overflow
import SourceAtlas.Proofs.Number.Positive
import SourceAtlas.Proofs.Number.Underflow
import SourceAtlas.Proofs.Path.Join
import SourceAtlas.Proofs.Path.Key
import SourceAtlas.Proofs.Reference.Aggregate
import SourceAtlas.Proofs.Reference.Claim
import SourceAtlas.Proofs.Reference.Collect
import SourceAtlas.Proofs.Reference.Comment
import SourceAtlas.Proofs.Reference.Export
import SourceAtlas.Proofs.Reference.Import
import SourceAtlas.Proofs.Reference.Locality
import SourceAtlas.Proofs.Reference.Order
import SourceAtlas.Proofs.Reference.Parameter
import SourceAtlas.Proofs.Reference.Record
import SourceAtlas.Proofs.Search.Accepted
import SourceAtlas.Proofs.Search.Cosine
import SourceAtlas.Proofs.Search.Outcome
import SourceAtlas.Proofs.Search.Rank
import SourceAtlas.Proofs.Search.Score
import SourceAtlas.Proofs.Search.Top
import SourceAtlas.Proofs.Session.Account
import SourceAtlas.Proofs.Session.Coherence
import SourceAtlas.Proofs.Session.Confluence
import SourceAtlas.Proofs.Session.Convergence
import SourceAtlas.Proofs.Session.Incremental
import SourceAtlas.Proofs.Session.Ledger
import SourceAtlas.Proofs.Session.Removal
import SourceAtlas.Proofs.Session.WriteBack
import SourceAtlas.Proofs.Settings.Items
import SourceAtlas.Proofs.Settings.Load
import SourceAtlas.Proofs.Settings.Resolved
import SourceAtlas.Proofs.Store.Catalogue
import SourceAtlas.Proofs.Store.Dimension
import SourceAtlas.Proofs.Store.Frame
import SourceAtlas.Proofs.Store.Invariant
import SourceAtlas.Proofs.Store.Order
import SourceAtlas.Proofs.Store.Outcome
import SourceAtlas.Proofs.Store.Statement
import SourceAtlas.Proofs.Store.Transaction
import SourceAtlas.Proofs.Store.Views
import SourceAtlas.Proofs.Syntax.Ancestor
import SourceAtlas.Proofs.Syntax.Comment
import SourceAtlas.Proofs.Syntax.Gathering
import SourceAtlas.Proofs.Syntax.Layout
import SourceAtlas.Proofs.Syntax.Pattern
import SourceAtlas.Proofs.Syntax.Tree
import SourceAtlas.Proofs.Text.Decode
import SourceAtlas.Proofs.Text.Lines
import SourceAtlas.Proofs.Text.Lower
import SourceAtlas.Proofs.Text.Utf8
import SourceAtlas.Proofs.Vector.RoundTrip
import SourceAtlas.Proofs.Vector.Rounding
import SourceAtlas.Proofs.Vector.Shape
import SourceAtlas.Proofs.Vector.Single
import SourceAtlas.Proofs.Yaml.Cursor
import SourceAtlas.Proofs.Yaml.Node
import SourceAtlas.Proofs.Yaml.Read
import SourceAtlas.Proofs.Yaml.Scalar
import SourceAtlas.Proofs.Yaml.Token
