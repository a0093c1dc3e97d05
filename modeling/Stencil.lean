import Stencil.Modifier.Configuration
import Stencil.Render.Diagnostic
import Stencil.Xml.Parse
import Stencil.Bean.Property
import Stencil.Proofs.Modifier.Escape
import Stencil.Proofs.Input.Utf8
import Stencil.Proofs.Input.Pages
import Stencil.Proofs.Input.Script
import Stencil.Proofs.Input.Source
import Stencil.Proofs.Input.Pointer
import Stencil.Proofs.Render.Marker
import Stencil.Proofs.Data.Streams
import Stencil.Proofs.Data.Delivery
import Stencil.Proofs.Render.Loader
import Stencil.Proofs.Render.Twin
import Stencil.Proofs.Render.Lockstep
import Stencil.Proofs.Render.Included
import Stencil.Proofs.Render.Watched
import Stencil.Proofs.Render.Termination
import Stencil.Proofs.Render.Caching
import Stencil.Proofs.Render.Meaning
import Stencil.Proofs.Render.Pieces
import Stencil.Proofs.Render.Outline
import Stencil.Proofs.Render.Standing
import Stencil.Proofs.Render.Scanning
import Stencil.Proofs.Render.Faithful
import Stencil.Proofs.Render.Structure
import Stencil.Proofs.Render.Inert
import Stencil.Proofs.Render.Writes
import Stencil.Proofs.Render.Escaping
import Stencil.Proofs.Modifier.Decoding
import Stencil.Proofs.Text.Cut
import Stencil.Proofs.Render.Grammar
import Stencil.Proofs.Render.Aloof
import Stencil.Proofs.Render.Pace
import Stencil.Proofs.Render.Breaking
import Stencil.Proofs.Data.Supply
import Stencil.Proofs.Value.Materialise
import Stencil.Proofs.Render.Linked
import Stencil.Proofs.Render.Streaming
import Stencil.Proofs.Data.Closing
import Stencil.Proofs.Render.Separator
import Stencil.Proofs.Render.PropertyList
import Stencil.Proofs.Xml.PrintedTag
import Stencil.Proofs.Xml.Printing
import Stencil.Proofs.Data.Fields
import Stencil.Proofs.Data.Path
import Stencil.Proofs.Value.Lookup
import Stencil.Proofs.Bean.Skipping
import Stencil.Proofs.Data.Failing
import Stencil.Proofs.Render.ComesTo
import Stencil.Proofs.Render.Truncated
import Stencil.Proofs.Render.Ledger
import Stencil.Proofs.Render.Accounts
import Stencil.Proofs.Render.OpenedOnce
import Stencil.Proofs.Modifier.Instant
import Stencil.Proofs.Value.Documents
import Stencil.Proofs.Data.Owning
import Stencil.Proofs.Data.Ahead
import Stencil.Proofs.Render.Thrift
import Stencil.Proofs.Render.Visits
import Stencil.Proofs.Render.Tested
import Stencil.Proofs.Render.Emptiness
import Stencil.Proofs.Render.Directory
import Stencil.Proofs.Input.Wellformed
import Stencil.Proofs.Input.Verdict
import Stencil.Proofs.Data.Losing
import Stencil.Proofs.Render.Chronicle
import Stencil.Proofs.Render.Orderly
import Stencil.Proofs.Render.Chronicles
import Stencil.Proofs.Render.Continuation
import Stencil.Proofs.Render.UnitEscape
import Stencil.Proofs.Output.Logged
import Stencil.Proofs.Render.Delivered
import Stencil.Proofs.Render.TextFiles
import Stencil.Proofs.Render.Restocked
import Stencil.Proofs.Render.Given
import Stencil.Proofs.Modifier.Declared
import Stencil.Proofs.Modifier.Expansion
import Stencil.Proofs.Modifier.Integer
import Stencil.Proofs.Number.Digits
import Stencil.Proofs.Calendar.Reckoning
import Stencil.Proofs.Calendar.Iso
import Stencil.Proofs.Modifier.Readable
import Stencil.Proofs.Locale.Decimal
import Stencil.Proofs.Bean.Naming
import Stencil.Proofs.Bean.Computed
import Stencil.Proofs.Xml.DocumentOrder
import Stencil.Proofs.Render.Passage
import Stencil.Proofs.Render.Figures
import Stencil.Proofs.Modifier.Amount
