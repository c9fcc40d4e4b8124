import AwardsDesk.Session.Boards
import AwardsDesk.Desk.Poller
import AwardsDesk.Desk.Backend
import AwardsDesk.Store.Basic
import AwardsDesk.Board.Basic
import AwardsDesk.Session.Gates
import AwardsDesk.Session.Basic
import AwardsDesk.Awards.Response
import AwardsDesk.Board.Config
import AwardsDesk.Awards.CellKey
import AwardsDesk.Json.Value
import AwardsDesk.Text.Blank
import AwardsDesk.Text.Quoted
import AwardsDesk.Gate.Manager
import AwardsDesk.Gate.Nested
import AwardsDesk.Proofs.Awards.RoundTrip
import AwardsDesk.Proofs.Gate.Line
import AwardsDesk.Proofs.Gate.Ownership
import AwardsDesk.Proofs.Board.Jobs
import AwardsDesk.Proofs.Board.Serial
import AwardsDesk.Proofs.Board.Layout
import AwardsDesk.Proofs.Board.Refresh
import AwardsDesk.Proofs.Board.Shown
import AwardsDesk.Proofs.Board.Sound
import AwardsDesk.Proofs.Board.Notes
import AwardsDesk.Proofs.Board.Saving
import AwardsDesk.Proofs.Store.Records
import AwardsDesk.Proofs.Store.Rows
import AwardsDesk.Proofs.Store.Display
import AwardsDesk.Proofs.Store.Pickup
import AwardsDesk.Proofs.Store.Columns
import AwardsDesk.Proofs.Store.Listing
import AwardsDesk.Proofs.Store.Succession
import AwardsDesk.Proofs.Store.Calls
import AwardsDesk.Proofs.Desk.Faithful
import AwardsDesk.Proofs.Desk.Drift
import AwardsDesk.Proofs.Desk.FirstRefresh
import AwardsDesk.Proofs.Gate.Halls
import AwardsDesk.Proofs.Gate.Erasure
import AwardsDesk.Proofs.Gate.Moves
import AwardsDesk.Proofs.Gate.Nested
import AwardsDesk.Proofs.Gate.Held
import AwardsDesk.Proofs.Gate.Misuse
import AwardsDesk.Proofs.Gate.Reentry
import AwardsDesk.Proofs.Board.Asked
import AwardsDesk.Proofs.Desk.InFlight
import AwardsDesk.Proofs.Desk.Accounting
import AwardsDesk.Proofs.Session.Run
import AwardsDesk.Proofs.Session.Settling
import AwardsDesk.Proofs.Session.Pollers
import AwardsDesk.Proofs.Json.Written
import AwardsDesk.Proofs.Board.Reordered
import AwardsDesk.Proofs.Gate.Managed
import AwardsDesk.Proofs.Awards.Decoding
import AwardsDesk.Proofs.Board.Configured
import AwardsDesk.Proofs.Gate.Conversion
import AwardsDesk.Proofs.Gate.Handover
import AwardsDesk.Proofs.Desk.Clockwork
import AwardsDesk.Proofs.Desk.Ticks
import AwardsDesk.Proofs.Session.Ticks
import AwardsDesk.Proofs.Json.Meaning
import AwardsDesk.Proofs.Awards.Envelope
import AwardsDesk.Proofs.Board.Keys
