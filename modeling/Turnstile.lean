import Turnstile.Data.Json
import Turnstile.Data.Value
import Turnstile.Decimal.Reading
import Turnstile.Decimal.Shortest
import Turnstile.Decimal.Text
import Turnstile.Http.Header
import Turnstile.Http.Message
import Turnstile.Http.Peer
import Turnstile.Http.Status
import Turnstile.Http.Uri
import Turnstile.Metering.Bucket
import Turnstile.Metering.Clock
import Turnstile.Metering.FlowRate
import Turnstile.Metering.Limiter
import Turnstile.Metering.Quantity
import Turnstile.Metering.Session
import Turnstile.Metering.Stream
import Turnstile.Metering.Terms
import Turnstile.Metering.Timeline
import Turnstile.Metering.Transfer
import Turnstile.Proofs.Metering.Attendance
import Turnstile.Proofs.Metering.Bounds
import Turnstile.Proofs.Metering.Cancellation
import Turnstile.Proofs.Metering.Conservation
import Turnstile.Proofs.Metering.Endings
import Turnstile.Proofs.Metering.Line
import Turnstile.Proofs.Metering.Order
import Turnstile.Proofs.Metering.Overtaking
import Turnstile.Proofs.Routing.Answers
import Turnstile.Proofs.Routing.Dispatch
import Turnstile.Proofs.Routing.Mapping
import Turnstile.Routing.Error
import Turnstile.Routing.HostTable
import Turnstile.Routing.Hostname
import Turnstile.Routing.Key
import Turnstile.Routing.PathTable
import Turnstile.Routing.Pathname
import Turnstile.Routing.Trie
import Turnstile.Server.Address
import Turnstile.Server.Connection
import Turnstile.Server.Counters
import Turnstile.Server.Operators
import Turnstile.Server.Reload
import Turnstile.Server.Running
import Turnstile.Server.Service
import Turnstile.Settings.Basic
import Turnstile.Settings.Checking
import Turnstile.Settings.Reading
import Turnstile.Settings.Writing
import Turnstile.Site.Application
import Turnstile.Site.Certificates
import Turnstile.Site.Dispatcher
import Turnstile.Site.Error
import Turnstile.Site.ServerName
import Turnstile.Site.Tables
import Turnstile.Text.Blank
import Turnstile.Text.Pieces
import Turnstile.Text.Printable
import Turnstile.Text.Quoted
import Turnstile.Proofs.Server.Reloading
import Turnstile.Proofs.Server.Contention
import Turnstile.Proofs.Site.Building
import Turnstile.Proofs.Site.Mounts
import Turnstile.Proofs.Site.Dispatching
import Turnstile.Proofs.Metering.Doubles
import Turnstile.Proofs.Metering.Asking
import Turnstile.Proofs.Metering.Outlet
import Turnstile.Proofs.Metering.Balance
import Turnstile.Proofs.Metering.Writing
import Turnstile.Proofs.Metering.Transferring
import Turnstile.Proofs.Settings.FlowText
import Turnstile.Proofs.Settings.Rereading
import Turnstile.Proofs.Site.ServerNames
import Turnstile.Proofs.Site.Relisting
import Turnstile.Proofs.Metering.Rounding
import Turnstile.Proofs.Metering.Gates
import Turnstile.Proofs.Metering.Admission
import Turnstile.Proofs.Settings.Fitting
import Turnstile.Proofs.Metering.Refilling
import Turnstile.Proofs.Metering.Refusals
import Turnstile.Proofs.Metering.Restoring
import Turnstile.Proofs.Metering.Waking
import Turnstile.Proofs.Metering.Rush
import Turnstile.Proofs.Metering.Punctuality
import Turnstile.Proofs.Routing.Enumeration
import Turnstile.Proofs.Routing.HostGrammar
import Turnstile.Proofs.Routing.PathGrammar
import Turnstile.Proofs.Http.Heads
import Turnstile.Proofs.Site.Buildable
import Turnstile.Proofs.Site.Redirecting
import Turnstile.Proofs.Site.Addressing
import Turnstile.Proofs.Routing.Nodes
import Turnstile.Proofs.Routing.Walks
import Turnstile.Proofs.Metering.Setup
import Turnstile.Proofs.Metering.Lasting
import Turnstile.Proofs.Settings.Loading
import Turnstile.Proofs.Server.Restarting
import Turnstile.Proofs.Server.Reporting
