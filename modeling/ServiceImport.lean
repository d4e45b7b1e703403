import ServiceImport.Proofs.Filter.Grammar
import ServiceImport.Proofs.Ledger.WellFormed
import ServiceImport.Site.Build
import ServiceImport.Site.Run
import ServiceImport.Filter.Printer
import ServiceImport.Site.Inquiry
import ServiceImport.Proofs.Filter.Reading
import ServiceImport.Proofs.Filter.RoundTrip
import ServiceImport.Proofs.Ledger.Handles
import ServiceImport.Proofs.Site.Frames
import ServiceImport.Proofs.Site.Runs
import ServiceImport.Proofs.Site.Turns
import ServiceImport.Proofs.Site.Dealings
import ServiceImport.Proofs.Site.Strides
import ServiceImport.Proofs.Site.Proxies
import ServiceImport.Proofs.Site.Accounts
import ServiceImport.Proofs.Site.Calls
import ServiceImport.Proofs.Site.Departures
import ServiceImport.Proofs.Counters
import ServiceImport.Proofs.Site.Subscriptions
import ServiceImport.Proofs.Site.Origins
import ServiceImport.Proofs.Site.Services
import ServiceImport.Proofs.Site.Listeners
import ServiceImport.Proofs.Site.Locations
import ServiceImport.Proofs.Site.ImportTable
import ServiceImport.Proofs.Site.Readiness
import ServiceImport.Proofs.Site.Permits
import ServiceImport.Proofs.Site.Releases
import ServiceImport.Proofs.Site.Takings
import ServiceImport.Proofs.Site.Removals
import ServiceImport.Proofs.Site.Commuting
import ServiceImport.Proofs.Ledger.Entries
import ServiceImport.Proofs.Site.Prospects
import ServiceImport.Proofs.Site.Advances
import ServiceImport.Proofs.Site.Arrivals
import ServiceImport.Proofs.Site.Independence
import ServiceImport.Proofs.Hub.Readers
import ServiceImport.Proofs.Hub.Record
import ServiceImport.Proofs.Hub.Delivery
import ServiceImport.Proofs.Hub.Likeness
import ServiceImport.Proofs.Site.Spans
import ServiceImport.Proofs.Site.Blindness
import ServiceImport.Proofs.Site.Hubs
import ServiceImport.Proofs.Site.Quiescence
import ServiceImport.Proofs.Site.Alike
import ServiceImport.Proofs.Site.Attendance
import ServiceImport.Proofs.Site.Relay
import ServiceImport.Proofs.Site.Importables
import ServiceImport.Proofs.Site.Adoption
import ServiceImport.Proofs.Site.NewRecords
import ServiceImport.Proofs.Site.Isolation
import ServiceImport.Proofs.Ledger.Admission
import ServiceImport.Proofs.Site.Leavings
import ServiceImport.Proofs.Site.Withdrawals
import ServiceImport.Proofs.Site.Shutdowns
import ServiceImport.Proofs.Properties
import ServiceImport.Proofs.Filter.Wildcards
import ServiceImport.Proofs.Filter.Naming
import ServiceImport.Proofs.Filter.Lookahead
import ServiceImport.Proofs.ProxyProperties
import ServiceImport.Proofs.ContainerId
import ServiceImport.Proofs.Ledger.Conservation
import ServiceImport.Proofs.ServiceSpace
