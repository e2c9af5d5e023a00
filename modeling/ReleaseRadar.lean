import ReleaseRadar.Lib.Lookup
import ReleaseRadar.Lib.Machine
import ReleaseRadar.Lib.Keyed
import ReleaseRadar.Lib.Db
import ReleaseRadar.Lib.Reading
import ReleaseRadar.Lib.Foreseen
import ReleaseRadar.Lib.Partway
import ReleaseRadar.Lib.DbRelational
import ReleaseRadar.Lib.ReadCommitted
import ReleaseRadar.Lib.ParentLock
import ReleaseRadar.Lib.Wakeup
import ReleaseRadar.Lib.Retry
import ReleaseRadar.Lib.Utf8
import ReleaseRadar.Lib.ContentLine
import ReleaseRadar.Lib.SearchFilter
import ReleaseRadar.Lib.Base64
import ReleaseRadar.Lib.JsonText
import ReleaseRadar.Lib.JsonWrite
import ReleaseRadar.Lib.Decimal
import ReleaseRadar.Lib.Gregorian
import ReleaseRadar.Lib.JsDate
import ReleaseRadar.Lib.IsoDate
import ReleaseRadar.Lib.Rfc3339
import ReleaseRadar.Lib.JsDateTime
import ReleaseRadar.Lib.Double
import ReleaseRadar.Lib.GoDuration
import ReleaseRadar.Lib.Rfc1123
import ReleaseRadar.Lib.Runs
import ReleaseRadar.Lib.Computus
import ReleaseRadar.Domain
import ReleaseRadar.Store.Notifications
import ReleaseRadar.Store.ConcurrentReschedule
import ReleaseRadar.Store.Tables
import ReleaseRadar.Store.Repository
import ReleaseRadar.Store.RolloutSpec
import ReleaseRadar.Lib.Distribute
import ReleaseRadar.Store.ReadPaths
import ReleaseRadar.Store.ReadMoments
import ReleaseRadar.Store.StoredRollout
import ReleaseRadar.Store.MasterData
import ReleaseRadar.Store.ConcurrentUpdates
import ReleaseRadar.Store.Schema
import ReleaseRadar.Store.References
import ReleaseRadar.Store.RowsAffected
import ReleaseRadar.Store.Inheritance
import ReleaseRadar.Store.Locks
import ReleaseRadar.Store.Refusals
import ReleaseRadar.Store.Catalogue
import ReleaseRadar.Store.Seed
import ReleaseRadar.Store.Migrate
import ReleaseRadar.Notify.Schedule
import ReleaseRadar.Notify.System
import ReleaseRadar.Notify.Plan
import ReleaseRadar.Notify.NoLoss
import ReleaseRadar.Notify.NoDuplicate
import ReleaseRadar.Notify.ConcurrentEdits
import ReleaseRadar.Notify.RenderedStage
import ReleaseRadar.Notify.AdvanceLabel
import ReleaseRadar.Notify.Card
import ReleaseRadar.Notify.Teams
import ReleaseRadar.Notify.Queue
import ReleaseRadar.Api.Json
import ReleaseRadar.Api.Decode
import ReleaseRadar.Calendar.Ics
import ReleaseRadar.Calendar.Feed
import ReleaseRadar.Calendar.EventLength
import ReleaseRadar.Calendar.Folding
import ReleaseRadar.Calendar.Escaping
import ReleaseRadar.Api.Handlers
import ReleaseRadar.Api.RolloutWrite
import ReleaseRadar.Api.TaskLog
import ReleaseRadar.Frontend.EditSession
import ReleaseRadar.Frontend.SavedDraft
import ReleaseRadar.Frontend.RolloutDetail
import ReleaseRadar.Frontend.Stage
import ReleaseRadar.Frontend.LockBanner
import ReleaseRadar.Frontend.Cascade
import ReleaseRadar.Frontend.Timeline
import ReleaseRadar.Frontend.ListView
import ReleaseRadar.Frontend.ScheduleRules
import ReleaseRadar.Frontend.CreateForm
import ReleaseRadar.Api.Atomicity
import ReleaseRadar.Api.ScheduleCoverage
import ReleaseRadar.Api.Requests
import ReleaseRadar.Api.Absence
import ReleaseRadar.Api.ListFields
import ReleaseRadar.Api.SaveBack
import ReleaseRadar.Api.PartialRead
import ReleaseRadar.Api.StoredLocks
import ReleaseRadar.Api.ServerFaults
import ReleaseRadar.Api.NewMasterData
import ReleaseRadar.Api.Echo
import ReleaseRadar.Api.Ledger
import ReleaseRadar.Api.Seeding
import ReleaseRadar.Notify.NoStarvation
import ReleaseRadar.Notify.Deleted
import ReleaseRadar.Api.Router
import ReleaseRadar.Api.Readonly
import ReleaseRadar.Api.Reads
import ReleaseRadar.Hub.Hub
import ReleaseRadar.Live.LiveService
import ReleaseRadar.Live.System
import ReleaseRadar.Live.Wiring
import ReleaseRadar.Live.NoUpdateLost
import ReleaseRadar.Live.StaleFrames
import ReleaseRadar.Live.SingleChannel
import ReleaseRadar.Live.AppSession
import ReleaseRadar.Live.Views
import ReleaseRadar.Live.Backoff
import ReleaseRadar.Hub.Registry
import ReleaseRadar.Hub.Order
import ReleaseRadar.Live.Registry
import ReleaseRadar.Auth.Ldap
import ReleaseRadar.Auth.Oidc
import ReleaseRadar.Auth.Initials
import ReleaseRadar.Auth.Callback
import ReleaseRadar.Auth.LoginProtocol
import ReleaseRadar.Auth.SessionCookie
import ReleaseRadar.Api.Wire
import ReleaseRadar.Auth.Authorization
import ReleaseRadar.Api.Resave
import ReleaseRadar.Frontend.LockForm
import ReleaseRadar.Frontend.Dialogs
