import PenDrawing.CommandLine.Rehearsal
import PenDrawing.Main
import PenDrawing.Surface.Canvas
import PenDrawing.Proofs.Base64.Grammar
import PenDrawing.Proofs.Path
import PenDrawing.Proofs.Record
import PenDrawing.Proofs.Zlib.Bounded
import PenDrawing.Proofs.Zlib.Stored
import PenDrawing.Proofs.Payload
import PenDrawing.Proofs.Payload.Accepted
import PenDrawing.Proofs.Payload.Damage
import PenDrawing.Proofs.Payload.Wrapped
import PenDrawing.Proofs.Listing.Bare
import PenDrawing.Proofs.Listing.Exported
import PenDrawing.Proofs.Listing.RoundTrip
import PenDrawing.Proofs.Listing.Replaced
import PenDrawing.Proofs.Lettering.Written
import PenDrawing.Proofs.Listing.Walk
import PenDrawing.Proofs.Listing.Numbers
import PenDrawing.Proofs.Files.Name
import PenDrawing.Proofs.Files.Tree
import PenDrawing.Proofs.Surface.Replay
import PenDrawing.Proofs.Surface.Strokes
import PenDrawing.Proofs.Surface.Reuse
import PenDrawing.Proofs.Surface.Order
import PenDrawing.Proofs.Surface.Recorded
import PenDrawing.Proofs.Surface.Pace
import PenDrawing.Proofs.Surface.History
import PenDrawing.Proofs.Surface.Closed
import PenDrawing.Proofs.CommandLine.Pictures
import PenDrawing.Proofs.CommandLine.Blocks
import PenDrawing.Proofs.CommandLine.Saved
import PenDrawing.Proofs.Surface.LongTime
import PenDrawing.Proofs.Surface.Pen
import PenDrawing.Proofs.Surface.Writes
import PenDrawing.Proofs.CommandLine.ReadBack
import PenDrawing.Proofs.Path.Openings
import PenDrawing.Proofs.Settings.Overlay
