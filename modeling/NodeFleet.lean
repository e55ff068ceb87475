import NodeFleet.Cloud.Stock
import NodeFleet.Fleet.Episode
import NodeFleet.Json.Reader
import NodeFleet.Routine.TextCache
import NodeFleet.Report
import NodeFleet.Proofs.Rounding
import NodeFleet.Proofs.Table
import NodeFleet.Proofs.ProviderId
import NodeFleet.Proofs.Json.NumberText
import NodeFleet.Proofs.Json.Quoting
import NodeFleet.Proofs.Json.Order
import NodeFleet.Proofs.Json.Canonical
import NodeFleet.Proofs.Json.Fields
import NodeFleet.Proofs.Selection
import NodeFleet.Proofs.NodeClass.Resolution
import NodeFleet.Proofs.Picks
import NodeFleet.Proofs.Routine.Path
import NodeFleet.Proofs.Routine.Interleaving
import NodeFleet.Proofs.Routine.Effects
import NodeFleet.Proofs.Routine.Lock
import NodeFleet.Proofs.Routine.Cached
import NodeFleet.Proofs.Routine.CacheHistory
import NodeFleet.Proofs.Routine.Poll
import NodeFleet.Proofs.Fleet.Calls
import NodeFleet.Proofs.Fleet.Launch
import NodeFleet.Proofs.Routine.Completion
import NodeFleet.Proofs.Fleet.Order
import NodeFleet.Proofs.Fleet.Effects
import NodeFleet.Proofs.Fleet.LaunchRecord
import NodeFleet.Proofs.Fleet.Serving
import NodeFleet.Proofs.Fleet.Removal
import NodeFleet.Proofs.Routine.Reliance
import NodeFleet.Proofs.Fleet.Stock
import NodeFleet.Proofs.Fleet.Listing
import NodeFleet.Proofs.Fleet.Query
import NodeFleet.Proofs.Fleet.Discipline
import NodeFleet.Proofs.Fleet.Transparency
import NodeFleet.Proofs.Routine.Script
import NodeFleet.Proofs.Fleet.Service
import NodeFleet.Proofs.Fleet.Creation
import NodeFleet.Proofs.Fleet.Agreement
import NodeFleet.Proofs.Cloud.Machine
import NodeFleet.Proofs.Fleet.Identity
import NodeFleet.Proofs.Fleet.Registration
import NodeFleet.Proofs.Fleet.Finding
import NodeFleet.Proofs.Fleet.Storing
import NodeFleet.Proofs.Fleet.Readback
import NodeFleet.Proofs.Routine.Cancellation
import NodeFleet.Proofs.Fleet.Cancellation
import NodeFleet.Proofs.Fleet.Requesting
import NodeFleet.Proofs.Fleet.Placement
import NodeFleet.Proofs.Cloud.Records
import NodeFleet.Proofs.Fleet.Describing
import NodeFleet.Proofs.Fleet.Remembering
import NodeFleet.Proofs.Routine.Pace
import NodeFleet.Proofs.Routine.Punctual
import NodeFleet.Proofs.Fleet.Waiting
import NodeFleet.Proofs.Cache
import NodeFleet.Proofs.Routine.Purging
import NodeFleet.Proofs.Routine.CacheLog
import NodeFleet.Proofs.Fleet.Reconciliation
import NodeFleet.Proofs.NodeClass.Likeness
import NodeFleet.Proofs.Fleet.Drifting
import NodeFleet.Proofs.Cloud.Managed
import NodeFleet.Proofs.Fleet.Ownership
import NodeFleet.Proofs.Fleet.Workers
import NodeFleet.Proofs.Fleet.Resources
import NodeFleet.Proofs.Fleet.Provenance
import NodeFleet.Proofs.Base64
import NodeFleet.Proofs.Fleet.Coherence
import NodeFleet.Proofs.Time.Calendar
import NodeFleet.Proofs.Time.Reading
import NodeFleet.Proofs.Json.Recovery
import NodeFleet.Proofs.Recovery
import NodeFleet.Proofs.Routine.Cold
import NodeFleet.Proofs.Fleet.TemplateListing
import NodeFleet.Proofs.Json.Repetition
import NodeFleet.Proofs.NodeClass.Repetition
import NodeFleet.Proofs.Fleet.RequestSettings
import NodeFleet.Proofs.Fleet.TagAgreement
import NodeFleet.Proofs.Fleet.AddedTerms
import NodeFleet.Proofs.NodeClass.Conditions
import NodeFleet.Proofs.Time.Offsets
import NodeFleet.Proofs.Fleet.CreationTime
import NodeFleet.Proofs.Routine.Swift
import NodeFleet.Proofs.Cloud.Startup
import NodeFleet.Proofs.Fleet.Tending
import NodeFleet.Proofs.Fleet.Schedule
import NodeFleet.Proofs.Cloud.Changes
import NodeFleet.Proofs.Cloud.History
