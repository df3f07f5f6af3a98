import HuntBoard.KeyedMap
import HuntBoard.Ids
import HuntBoard.Text.Blank
import HuntBoard.Text.Lower
import HuntBoard.Text.Quoted
import HuntBoard.Instant.Loose
import HuntBoard.Json.Reader
import HuntBoard.Json.Printer
import HuntBoard.Json.Record
import HuntBoard.TabId
import HuntBoard.Snapshot
import HuntBoard.Channel
import HuntBoard.Recent
import HuntBoard.Dialer
import HuntBoard.Board
import HuntBoard.Activity
import HuntBoard.Roster
import HuntBoard.Lease
import HuntBoard.LockTable
import HuntBoard.Wire.Patch
import HuntBoard.Write.Reply
import HuntBoard.Rehearsal.Report
import HuntBoard.Url.Reader
import HuntBoard.Url.Query
import HuntBoard.Config.Reader
import HuntBoard.Mute
import HuntBoard.Server.Exchange
import HuntBoard.Server.Socket
import HuntBoard.Main
import HuntBoard.Proofs.History
import HuntBoard.Proofs.Dialing
import HuntBoard.Proofs.HubSteps
import HuntBoard.Proofs.Resume
import HuntBoard.Proofs.Inbox
import HuntBoard.Proofs.TabSteps
import HuntBoard.Proofs.CatchUp
import HuntBoard.Proofs.OpenWrites
import HuntBoard.Proofs.Overlay
import HuntBoard.Proofs.WriteRace
import HuntBoard.Proofs.Desk
import HuntBoard.Proofs.PendingWrites
import HuntBoard.Proofs.FailedWrites
import HuntBoard.Proofs.AcceptedWrites
import HuntBoard.Proofs.ActivityNews
import HuntBoard.Proofs.StaleEvents
import HuntBoard.Proofs.Entities
import HuntBoard.Proofs.SteadyView
import HuntBoard.Proofs.BoardMarks
import HuntBoard.Proofs.Fanout
import HuntBoard.Proofs.OneLink
import HuntBoard.Proofs.StartOver
import HuntBoard.Proofs.Parcels
import HuntBoard.Proofs.Announcements
import HuntBoard.Proofs.DeadStream
import HuntBoard.Proofs.Digits
import HuntBoard.Proofs.JsonText
import HuntBoard.Proofs.Stamps
import HuntBoard.Proofs.Frames
import HuntBoard.Proofs.Leases
import HuntBoard.Proofs.Vigil
import HuntBoard.Proofs.Evictions
import HuntBoard.Proofs.Rehearsals
import HuntBoard.Proofs.Batches
import HuntBoard.Proofs.DeclaredGap
import HuntBoard.Proofs.Subjects
import HuntBoard.Proofs.WholePatches
import HuntBoard.Proofs.DistinctRequests
import HuntBoard.Proofs.Envelopes
import HuntBoard.Proofs.OwnMail
import HuntBoard.Proofs.BoardContents
import HuntBoard.Proofs.BoardOrder
import HuntBoard.Proofs.Completion
import HuntBoard.Proofs.DueReminders
import HuntBoard.Proofs.DialerLog
import HuntBoard.Proofs.WriteOrder
import HuntBoard.Proofs.Waits
import HuntBoard.Proofs.LeaseLedger
import HuntBoard.Proofs.LockTable
import HuntBoard.Proofs.EventGrammar
import HuntBoard.Proofs.WriteOutcomes
import HuntBoard.Proofs.Percent
import HuntBoard.Proofs.Paths
import HuntBoard.Proofs.HostNames
import HuntBoard.Proofs.Authorities
import HuntBoard.Proofs.Addresses
import HuntBoard.Proofs.Endpoints
import HuntBoard.Proofs.OwnIds
import HuntBoard.Proofs.Anchors
import HuntBoard.Proofs.Muting
import HuntBoard.Proofs.SocketStream
