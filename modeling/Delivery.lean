import Delivery.Agenda
import Delivery.Cancellation.Context
import Delivery.Cancellation.Token
import Delivery.Cancellation.Watch
import Delivery.Candidates
import Delivery.Cascade
import Delivery.Config.Basic
import Delivery.Config.File
import Delivery.Double.Basic
import Delivery.Double.Decimal
import Delivery.Double.Shortest
import Delivery.Duration
import Delivery.Error
import Delivery.Event
import Delivery.Flight
import Delivery.Json.Basic
import Delivery.Json.Decode
import Delivery.Json.Lexer
import Delivery.Json.Node
import Delivery.Json.Token
import Delivery.Log
import Delivery.Plan
import Delivery.Promote
import Delivery.Proofs.Calls
import Delivery.Proofs.Moments
import Delivery.Queries
import Delivery.Rehearsal
import Delivery.Request
import Delivery.Resource.Basic
import Delivery.Resource.Decoding
import Delivery.Resource.Encoding
import Delivery.Resource.Freight
import Delivery.Resource.Meta
import Delivery.Resource.Promotion
import Delivery.Resource.Stage
import Delivery.Service.Basic
import Delivery.Service.Wiring
import Delivery.Session
import Delivery.Store
import Delivery.Subdomain
import Delivery.Subscribers
import Delivery.Table
import Delivery.Text.Case
import Delivery.Text.CharSet
import Delivery.Text.Digits
import Delivery.Text.Hex
import Delivery.Text.Lowercase
import Delivery.Text.Position
import Delivery.Text.Quoted
import Delivery.Text.Visible
import Delivery.Timestamp.Basic
import Delivery.Timestamp.Reader
import Delivery.Window
import Delivery.World
import Delivery.Proofs.Writes
import Delivery.Proofs.Operations
import Delivery.Proofs.Accounting
import Delivery.Proofs.SharedStore
import Delivery.Proofs.StoreEffects
import Delivery.Proofs.Qualification
import Delivery.Proofs.Names
import Delivery.Proofs.Independence
import Delivery.Proofs.Legibility
import Delivery.Proofs.RoundTrip
import Delivery.Proofs.JsonText
import Delivery.Proofs.SortedValues
import Delivery.Proofs.DecodedValues
import Delivery.Proofs.ResourceTexts
import Delivery.Proofs.Reporting
import Delivery.Proofs.StorableNames
import Delivery.Proofs.NameLayout
import Delivery.Proofs.FreshNames
import Delivery.Proofs.Protocol
import Delivery.Proofs.Courses
import Delivery.Proofs.Stopping
import Delivery.Proofs.StoppedOperations
import Delivery.Proofs.StoreHistory
import Delivery.Proofs.Creations
import Delivery.Proofs.SideBySide
import Delivery.Proofs.Agreement
import Delivery.Proofs.FailureIsolation
import Delivery.Proofs.Recording
import Delivery.Proofs.SubscriberIndexes
import Delivery.Proofs.IndexUpkeep
import Delivery.Proofs.PromptWindows
import Delivery.Proofs.LiveReports
import Delivery.Proofs.WindowLimits
import Delivery.Proofs.VirtualClock
import Delivery.Proofs.Timetables
import Delivery.Proofs.Listeners
import Delivery.Proofs.EventLog
import Delivery.Proofs.Settlements
import Delivery.Proofs.PromptCourses
import Delivery.Proofs.Restamping
import Delivery.Proofs.FreightVersions
import Delivery.Proofs.Interleavings
import Delivery.Proofs.SubdomainGrammar
import Delivery.Proofs.StorableParts
import Delivery.Proofs.Happenings
import Delivery.Proofs.Abandonment
import Delivery.Proofs.AbandonedCalls
import Delivery.Proofs.Deadlines
import Delivery.Proofs.TokenLife
import Delivery.Proofs.CandidateSets
import Delivery.Proofs.FailureLines
import Delivery.Proofs.Rounding
import Delivery.Proofs.Timeouts
