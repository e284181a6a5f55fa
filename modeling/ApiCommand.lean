import ApiCommand.Command.Description
import ApiCommand.Exchange.Log
import ApiCommand.Exchange.LogSettings
import ApiCommand.Host.FileTable
import ApiCommand.Main
import ApiCommand.Program.Session
import ApiCommand.Proofs.Dict
import ApiCommand.Proofs.Schema.Validation
import ApiCommand.Proofs.Flag.History
import ApiCommand.Proofs.Flag.Shape
import ApiCommand.Proofs.Flag.Synthesis
import ApiCommand.Proofs.Catalog.Inputs
import ApiCommand.Proofs.Flag.Growth
import ApiCommand.Proofs.Flag.Naming
import ApiCommand.Proofs.Flag.PropertyPath
import ApiCommand.Proofs.Flag.Setting
import ApiCommand.Proofs.Flag.Tree
import ApiCommand.Proofs.Command.Rearrangement
import ApiCommand.Proofs.Flag.Coherence
import ApiCommand.Proofs.Value.Decode
import ApiCommand.Proofs.Flag.ParentForm
import ApiCommand.Proofs.Flag.Positional
import ApiCommand.Proofs.Command.Token
import ApiCommand.Proofs.Command.Scan
import ApiCommand.Proofs.Flag.Handover
import ApiCommand.Proofs.Command.HelpRequest
import ApiCommand.Proofs.Command.Hint
import ApiCommand.Proofs.Text.Numeral
import ApiCommand.Proofs.Binary64.Rounding
import ApiCommand.Proofs.Binary64.Shortest
import ApiCommand.Proofs.Binary64.Layout
import ApiCommand.Proofs.Json.RoundTrip
import ApiCommand.Proofs.Json.FloatRoundTrip
import ApiCommand.Proofs.Value.Rendering
import ApiCommand.Proofs.Flag.Candidate
import ApiCommand.Proofs.Json.Writing
import ApiCommand.Proofs.Link.Routing
import ApiCommand.Proofs.Link.Provenance
import ApiCommand.Proofs.Link.Provision
import ApiCommand.Proofs.Json.PointerText
import ApiCommand.Proofs.Catalog.BodyNames
import ApiCommand.Proofs.Catalog.Request
import ApiCommand.Proofs.Link.BodyMapping
import ApiCommand.Proofs.Text.Split
import ApiCommand.Proofs.Text.Percent
import ApiCommand.Proofs.Link.Expression
import ApiCommand.Proofs.Link.Grammar
import ApiCommand.Proofs.Link.Query
import ApiCommand.Proofs.Catalog.ExternalNames
import ApiCommand.Proofs.Link.Cookie
import ApiCommand.Proofs.Catalog.Body
import ApiCommand.Proofs.Text.WhiteSpace
import ApiCommand.Proofs.Catalog.PathTemplate
import ApiCommand.Proofs.Catalog.Reference
import ApiCommand.Proofs.Command.Hidden
import ApiCommand.Proofs.Json.InPlace
import ApiCommand.Proofs.Json.ReadingBack
import ApiCommand.Proofs.Json.PointerBijection
import ApiCommand.Proofs.Schema.Conformance
import ApiCommand.Proofs.Flag.FixedPositional
import ApiCommand.Proofs.Link.BodyOrder
import ApiCommand.Proofs.Flag.ExpandSlot
import ApiCommand.Proofs.Flag.ExampleOrder
import ApiCommand.Proofs.Flag.UsageExample
import ApiCommand.Proofs.Link.Header
import ApiCommand.Proofs.Link.Template
import ApiCommand.Proofs.Value.Integral
import ApiCommand.Proofs.Value.QuotedKey
import ApiCommand.Proofs.Schema.RoundTrip
import ApiCommand.Proofs.Schema.Condensed
import ApiCommand.Proofs.Text.Kebab
import ApiCommand.Proofs.Exchange.Document
import ApiCommand.Proofs.Exchange.RoundTrip
