import DirectedPresence.Address
import DirectedPresence.Address.Parser
import DirectedPresence.Cache.Event
import DirectedPresence.Cache.Grid
import DirectedPresence.Cache.Holding
import DirectedPresence.Cache.Hub
import DirectedPresence.Cache.Listeners
import DirectedPresence.Cache.Local
import DirectedPresence.Cache.Locks
import DirectedPresence.Cache.Orders
import DirectedPresence.Cache.Watch
import DirectedPresence.Cluster
import DirectedPresence.Cluster.Background
import DirectedPresence.Description
import DirectedPresence.Failure
import DirectedPresence.Form
import DirectedPresence.Form.Model
import DirectedPresence.Json
import DirectedPresence.Json.Container
import DirectedPresence.Json.Number
import DirectedPresence.Json.Parser
import DirectedPresence.Json.Printer
import DirectedPresence.Json.Scalar
import DirectedPresence.Json.Skip
import DirectedPresence.Json.Text
import DirectedPresence.Node
import DirectedPresence.Node.Caching
import DirectedPresence.Node.Dispatch
import DirectedPresence.Node.Membership
import DirectedPresence.Node.Sweep
import DirectedPresence.Node.Tracking
import DirectedPresence.Registry
import DirectedPresence.ReverseIndex
import DirectedPresence.Roster
import DirectedPresence.Services
import DirectedPresence.Services.Tables
import DirectedPresence.Settings
import DirectedPresence.Settings.Document
import DirectedPresence.Stanza
import DirectedPresence.Store
import DirectedPresence.Text.Blank
import DirectedPresence.Text.Coded
import DirectedPresence.Text.Quoted
import DirectedPresence.Trace
import DirectedPresence.Varint
import DirectedPresence.Wire
import DirectedPresence.Proofs.WireRoundTrip
import DirectedPresence.Proofs.CacheContents
import DirectedPresence.Proofs.CacheCalls
import DirectedPresence.Proofs.ListenerTables
import DirectedPresence.Proofs.EventLogs
import DirectedPresence.Proofs.RegistryPairs
import DirectedPresence.Proofs.SeatEdits
import DirectedPresence.Proofs.Ledgers
import DirectedPresence.Proofs.OperationEdits
import DirectedPresence.Proofs.RegistryWrites
import DirectedPresence.Proofs.TrackedPairs
import DirectedPresence.Proofs.MembershipSteps
import DirectedPresence.Proofs.LedgerSteps
import DirectedPresence.Proofs.ClusterRuns
import DirectedPresence.Proofs.StoreCacheAgreement
import DirectedPresence.Proofs.TrackedHistory
import DirectedPresence.Proofs.EventFeeds
import DirectedPresence.Proofs.IndexMirror
import DirectedPresence.Proofs.MirrorSteps
import DirectedPresence.Proofs.MirrorDepartures
import DirectedPresence.Proofs.Courses
import DirectedPresence.Proofs.IndexAgreement
import DirectedPresence.Proofs.OwedDepartures
import DirectedPresence.Proofs.DepartureCompensation
import DirectedPresence.Proofs.SeatTouches
import DirectedPresence.Proofs.Seclusion
import DirectedPresence.Proofs.OrderlyDepartures
import DirectedPresence.Proofs.IndexOutlook
import DirectedPresence.Proofs.OutlookSteps
import DirectedPresence.Proofs.WaitingNotices
import DirectedPresence.Proofs.LateNotices
import DirectedPresence.Proofs.OutstandingNotices
import DirectedPresence.Proofs.Retractions
import DirectedPresence.Proofs.RosterCoverage
import DirectedPresence.Proofs.LostCopies
import DirectedPresence.Proofs.LossyRuns
import DirectedPresence.Proofs.ChangingOwners
import DirectedPresence.Proofs.CoverageGaps
import DirectedPresence.Proofs.Dealings
import DirectedPresence.Proofs.HubActs
import DirectedPresence.Proofs.LiveListeners
import DirectedPresence.Proofs.DetachedNodes
import DirectedPresence.Proofs.SenderFrames
import DirectedPresence.Proofs.CommutingCalls
import DirectedPresence.Proofs.WireTruncation
import DirectedPresence.Proofs.JsonTokens
import DirectedPresence.Proofs.JsonRoundTrip
import DirectedPresence.Proofs.RepeatedRetractions
import DirectedPresence.Proofs.TrackingDecision
import DirectedPresence.Proofs.Sweeps
import DirectedPresence.Proofs.SweptSeats
import DirectedPresence.Proofs.DirectedDeliveries
import DirectedPresence.Proofs.RejectedStanzas
import DirectedPresence.Proofs.SessionGreetings
import DirectedPresence.Proofs.AddressGrammar
import DirectedPresence.Proofs.JsonGrammar
import DirectedPresence.Proofs.SettingsDocuments
import DirectedPresence.Proofs.RegistryHistories
import DirectedPresence.Proofs.EnumerationOrders
import DirectedPresence.Proofs.EnumeratedOperations
import DirectedPresence.Proofs.UnseenOrders
import DirectedPresence.Proofs.LockTables
import DirectedPresence.Proofs.ListenerHistories
import DirectedPresence.Proofs.RecordedSenders
import DirectedPresence.Proofs.ExactIndexes
