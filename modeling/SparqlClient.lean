import SparqlClient.Binding.Named
import SparqlClient.Binding.Token
import SparqlClient.Binding.Value
import SparqlClient.Builder.Basic
import SparqlClient.Builder.Clauses
import SparqlClient.Builder.Conditions
import SparqlClient.Cache
import SparqlClient.Calendar
import SparqlClient.Calendar.Iso
import SparqlClient.Command.Arguments
import SparqlClient.Command.Invocation
import SparqlClient.Command.Report
import SparqlClient.Command.Wire
import SparqlClient.Config
import SparqlClient.Config.Load
import SparqlClient.Connection.Basic
import SparqlClient.Connection.Execution
import SparqlClient.Connection.Query
import SparqlClient.Digest
import SparqlClient.Disk
import SparqlClient.Error
import SparqlClient.Json.Reader
import SparqlClient.Json.Writer
import SparqlClient.Log
import SparqlClient.Main
import SparqlClient.Number.Arithmetic
import SparqlClient.Number.Decimal
import SparqlClient.Number.Numeral
import SparqlClient.Number.Rounded
import SparqlClient.Number.Shortest
import SparqlClient.Prefixes
import SparqlClient.Query.Block
import SparqlClient.Query.Clause
import SparqlClient.Query.Condition
import SparqlClient.Query.Form
import SparqlClient.Query.Fragment
import SparqlClient.Query.Path
import SparqlClient.Query.Scope
import SparqlClient.Query.Spec
import SparqlClient.Query.Update
import SparqlClient.Rdf.Document
import SparqlClient.Rdf.Duration
import SparqlClient.Rdf.Escape
import SparqlClient.Rdf.Literal
import SparqlClient.Rdf.NTriples
import SparqlClient.Results
import SparqlClient.Seconds
import SparqlClient.Statement
import SparqlClient.Store.Admin
import SparqlClient.Store.Namespace
import SparqlClient.Store.Session
import SparqlClient.Store.Vendor
import SparqlClient.Table
import SparqlClient.Term.Classify
import SparqlClient.Term.Make
import SparqlClient.Term.Render
import SparqlClient.Term.Shape
import SparqlClient.Text.Base64
import SparqlClient.Text.Blank
import SparqlClient.Text.CaseContext
import SparqlClient.Text.Control
import SparqlClient.Text.LetterCase
import SparqlClient.Text.Pieces
import SparqlClient.Text.Printable
import SparqlClient.Text.Quoted
import SparqlClient.Text.Similar
import SparqlClient.Text.Word
import SparqlClient.Url
import SparqlClient.Value
import SparqlClient.Value.Display
import SparqlClient.Value.Use
import SparqlClient.Xml.Fragment
import SparqlClient.Xml.Token
import SparqlClient.Yaml.Block
import SparqlClient.Yaml.Cursor
import SparqlClient.Yaml.Document
import SparqlClient.Yaml.Kind
import SparqlClient.Yaml.Plain
import SparqlClient.Yaml.Quoted
import SparqlClient.Yaml.Scalar
import SparqlClient.Yaml.Token
import SparqlClient.Yaml.Tree
import SparqlClient.Proofs.Binding.Kept
import SparqlClient.Proofs.Binding.Lexeme
import SparqlClient.Proofs.Binding.Names
import SparqlClient.Proofs.Binding.Quoted
import SparqlClient.Proofs.Binding.Scan
import SparqlClient.Proofs.Binding.Substitution
import SparqlClient.Proofs.Builder.Edits
import SparqlClient.Proofs.Builder.InPlace
import SparqlClient.Proofs.Builder.Independence
import SparqlClient.Proofs.Builder.Wildcards
import SparqlClient.Proofs.Cache.Entries
import SparqlClient.Proofs.Cache.History
import SparqlClient.Proofs.Config.Files
import SparqlClient.Proofs.Connection.BuilderKeys
import SparqlClient.Proofs.Connection.Calls
import SparqlClient.Proofs.Connection.Executions
import SparqlClient.Proofs.Connection.Keys
import SparqlClient.Proofs.Connection.Namespaces
import SparqlClient.Proofs.Connection.Origin
import SparqlClient.Proofs.Connection.Preview
import SparqlClient.Proofs.Connection.Program
import SparqlClient.Proofs.Connection.Refused
import SparqlClient.Proofs.Connection.Remembered
import SparqlClient.Proofs.Connection.Replies
import SparqlClient.Proofs.Connection.Requests
import SparqlClient.Proofs.Connection.Run
import SparqlClient.Proofs.Connection.Scope
import SparqlClient.Proofs.Connection.Sends
import SparqlClient.Proofs.Connection.Situations
import SparqlClient.Proofs.Failure.Basic
import SparqlClient.Proofs.Failure.Document
import SparqlClient.Proofs.Failure.Exchange
import SparqlClient.Proofs.Failure.Query
import SparqlClient.Proofs.Json.Compact
import SparqlClient.Proofs.Json.Strings
import SparqlClient.Proofs.Log.Details
import SparqlClient.Proofs.Log.Hidden
import SparqlClient.Proofs.Log.Passes
import SparqlClient.Proofs.Log.Pieces
import SparqlClient.Proofs.Number.Order
import SparqlClient.Proofs.Number.Reading
import SparqlClient.Proofs.Query.Admitted
import SparqlClient.Proofs.Query.Alike
import SparqlClient.Proofs.Query.Allocation
import SparqlClient.Proofs.Query.Anchored
import SparqlClient.Proofs.Query.Anchors
import SparqlClient.Proofs.Query.Assembly
import SparqlClient.Proofs.Query.CatchAll
import SparqlClient.Proofs.Query.Clauses
import SparqlClient.Proofs.Query.Column
import SparqlClient.Proofs.Query.Conditions
import SparqlClient.Proofs.Query.Equality
import SparqlClient.Proofs.Query.Extension
import SparqlClient.Proofs.Query.Fits
import SparqlClient.Proofs.Query.Folding
import SparqlClient.Proofs.Query.Inlined
import SparqlClient.Proofs.Query.Owner
import SparqlClient.Proofs.Query.Ownership
import SparqlClient.Proofs.Query.Parts
import SparqlClient.Proofs.Query.Paths
import SparqlClient.Proofs.Query.Piece
import SparqlClient.Proofs.Query.Placeholders
import SparqlClient.Proofs.Query.Reading
import SparqlClient.Proofs.Query.Records
import SparqlClient.Proofs.Query.Run
import SparqlClient.Proofs.Query.Scalars
import SparqlClient.Proofs.Query.Spelling
import SparqlClient.Proofs.Query.Strings
import SparqlClient.Proofs.Query.Texts
import SparqlClient.Proofs.Query.Twin
import SparqlClient.Proofs.Query.Variables
import SparqlClient.Proofs.Rdf.Data
import SparqlClient.Proofs.Rdf.Lines
import SparqlClient.Proofs.Rdf.Strings
import SparqlClient.Proofs.Rdf.Syntax
import SparqlClient.Proofs.Rdf.Tokens
import SparqlClient.Proofs.Rdf.Written
import SparqlClient.Proofs.Statement.Forms
import SparqlClient.Proofs.Statement.Prologue
import SparqlClient.Proofs.Store.Endpoints
import SparqlClient.Proofs.Store.GraphUrl
import SparqlClient.Proofs.Store.Graphs
import SparqlClient.Proofs.Store.Names
import SparqlClient.Proofs.Store.Properties
import SparqlClient.Proofs.Term.Components
import SparqlClient.Proofs.Term.Rewritten
import SparqlClient.Proofs.Term.Shortened
import SparqlClient.Proofs.Text.Octets
