import NestApi.Txn.Program
import NestApi.Txn.Table
import NestApi.Txn.Machine
import NestApi.Txn.Rely
import NestApi.Txn.Rules
import NestApi.Txn.Soundness
import NestApi.Common.Errors
import NestApi.Authorization.Catalog
import NestApi.Authorization.Ability
import NestApi.Authorization.Tenancy
import NestApi.Authorization.Query
import NestApi.Db.Schema
import NestApi.Db.Statements
import NestApi.Handler
import NestApi.Authorization.Guard
import NestApi.Workspaces.OwnershipPolicy
import NestApi.Workspaces.RoleAssignmentPolicy
import NestApi.Workspaces.Memberships
import NestApi.Workspaces.Invitations
import NestApi.Workspaces.Workspaces
import NestApi.Auth.RefreshTokens
import NestApi.Auth.Login
import NestApi.Users.Users
import NestApi.Users.UserRoles
import NestApi.System
import NestApi.Protocol.History
import NestApi.Judgements.Accounts
import NestApi.Judgements.Platform
import NestApi.Properties.Runs
import NestApi.Properties.Ownership
import NestApi.Properties.Families
import NestApi.Txn.CommitsLast
import NestApi.Txn.Schedule
import NestApi.Properties.Redemption
import NestApi.Properties.Lifecycle
import NestApi.Properties.Withdrawal
import NestApi.Properties.Closing
import NestApi.Properties.Cutoffs
import NestApi.Properties.Reuse
import NestApi.Properties.Deactivation
import NestApi.Properties.Authority
import NestApi.Properties.Inviters
import NestApi.Properties.Collusion
import NestApi.Properties.Invalidation
import NestApi.Properties.Coherence
import NestApi.Db.LockDiscipline
import NestApi.Properties.Deadlock
import NestApi.Auth.JwtStrategy
import NestApi.Accounts.Runs
import NestApi.Properties.Rounding
import NestApi.Properties.PasswordGate
import NestApi.Properties.StaleLinks
import NestApi.Properties.VerifiedEmail
import NestApi.Properties.EmailAlerts
import NestApi.Properties.PhoneCodes
import NestApi.Properties.Erasure
import NestApi.Properties.McpSignIn
import NestApi.Properties.CatalogCheck
import NestApi.Properties.CatalogSync
import NestApi.Properties.ScheduleConvergence
import NestApi.Properties.Rescheduling
import NestApi.Properties.SendBudget
import NestApi.Properties.BotCheck
import NestApi.Properties.PayloadStore
import NestApi.Properties.FileReferences
import NestApi.Properties.StoredObjects
import NestApi.Properties.TimeScopes
import NestApi.Properties.RedisCredentials
import NestApi.Properties.UrlRedaction
import NestApi.Properties.DisposableDomains
import NestApi.Properties.PlainTextEmails
import NestApi.Properties.RunningTasks
import NestApi.Properties.Handover
import NestApi.Properties.AdministrativeRoutes
import NestApi.Properties.Pagination
import NestApi.Workspaces.InvitationEmails
import NestApi.Properties.InvitationLinks
import NestApi.Properties.FileNames
import NestApi.Properties.Cancellation
import NestApi.Properties.ReleaseTrains
import NestApi.Properties.AuditSearch
import NestApi.Properties.TrustedProxies
import NestApi.Properties.SendKeys
import NestApi.Properties.JobIds
import NestApi.Properties.StoredAssignments
import NestApi.Properties.PlatformRoles
import NestApi.Properties.LifecycleLines
import NestApi.Properties.HandlerWiring
import NestApi.Properties.JobFates
import NestApi.Properties.SignedUrls
import NestApi.Properties.Heartbeats
import NestApi.Properties.Shutdowns
import NestApi.Properties.Throttles
import NestApi.Properties.RouteDecisions
import NestApi.Properties.DeviceTokens
