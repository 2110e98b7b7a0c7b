import VectorStream.Color
import VectorStream.CommandLine.Directory
import VectorStream.CommandLine.Options
import VectorStream.CommandLine.Path
import VectorStream.CommandLine.Run
import VectorStream.Cursor
import VectorStream.Decoder
import VectorStream.Dialect
import VectorStream.Form
import VectorStream.Json
import VectorStream.Json.Drawing
import VectorStream.Keyword
import VectorStream.Listing
import VectorStream.Main
import VectorStream.Opcode
import VectorStream.Payload
import VectorStream.Point
import VectorStream.Render.Device
import VectorStream.Render.Frame
import VectorStream.Render.Pass
import VectorStream.Render.Primitive
import VectorStream.Render.State
import VectorStream.Scan
import VectorStream.Shape
import VectorStream.StreamError
import VectorStream.Table
import VectorStream.Text.Character
import VectorStream.Text.Numeral
import VectorStream.Text.Utf16
import VectorStream.Text.Utf8
import VectorStream.Proofs.Encoding
import VectorStream.Proofs.Nesting
import VectorStream.Proofs.Grammar
import VectorStream.Proofs.Run
import VectorStream.Proofs.Tokens
import VectorStream.Proofs.Relocation
import VectorStream.Proofs.Concatenation
import VectorStream.Proofs.Continuation
import VectorStream.Proofs.RoundTrip
import VectorStream.Proofs.Execution
import VectorStream.Proofs.Staging
import VectorStream.Proofs.Splicing
import VectorStream.Proofs.Coordinates
import VectorStream.Proofs.Lockstep
import VectorStream.Proofs.Widening
import VectorStream.Proofs.Visibility
import VectorStream.Proofs.Files
import VectorStream.Proofs.Redirection
import VectorStream.Proofs.Legibility
import VectorStream.Proofs.Listings
import VectorStream.Proofs.Styles
import VectorStream.Proofs.Accounting
import VectorStream.Proofs.Diagnostics
import VectorStream.Proofs.Balance
import VectorStream.Proofs.Progress
import VectorStream.Proofs.Registration
import VectorStream.Proofs.ErrorPlace
import VectorStream.Proofs.Surrogates
import VectorStream.Proofs.LineWeight
import VectorStream.Proofs.Fields
import VectorStream.Proofs.Sizes
import VectorStream.Proofs.Calls
