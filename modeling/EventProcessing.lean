import EventProcessing.Lifecycle
import EventProcessing.Message.Codec
import EventProcessing.Proofs.Agreement
import EventProcessing.Proofs.Causality
import EventProcessing.Proofs.Chronicle.Order
import EventProcessing.Proofs.Chronicle.Reading
import EventProcessing.Proofs.Fleet.Noninterference
import EventProcessing.Proofs.Invokers
import EventProcessing.Proofs.Lifecycles
import EventProcessing.Proofs.LostCommit
import EventProcessing.Proofs.Messages
import EventProcessing.Proofs.Module.Consistency
import EventProcessing.Proofs.Module.Groups
import EventProcessing.Proofs.Module.Interceptors
import EventProcessing.Proofs.Module.Resolution
import EventProcessing.Proofs.Module.Restart
import EventProcessing.Proofs.Module.Wiring
import EventProcessing.Proofs.Nesting
import EventProcessing.Proofs.Stores.Tokens
import EventProcessing.Proofs.Tracking.CatchingUp
import EventProcessing.Proofs.Tracking.Claims
import EventProcessing.Proofs.Tracking.Layouts
import EventProcessing.Proofs.Tracking.Lifetimes
import EventProcessing.Proofs.Tracking.Scheduled
import EventProcessing.SagaStore.Calls
import EventProcessing.Settings.Document
import EventProcessing.Proofs.Chronicle.Snapshots
import EventProcessing.Proofs.Selecting
import EventProcessing.Proofs.Cells
import EventProcessing.Proofs.Cells.Tables
import EventProcessing.Proofs.Module.Deeds
import EventProcessing.Proofs.Module.Laziness
import EventProcessing.Proofs.Stores.Sagas
import EventProcessing.Proofs.Correlation
import EventProcessing.Proofs.Settings
