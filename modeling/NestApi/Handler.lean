import Mathlib.Data.List.Dedup
import Mathlib.Data.List.Sort
import Mathlib.Data.String.Basic
import NestApi.Db.Statements

/-!
# Request handlers

What a request carries, what its handler reports to the history, how it can fail, and
the statements that several services share.
-/

namespace NestApi

/-- Configuration and the functions of libraries. The salt of a password hash is drawn
when the hash is made. -/
structure Env where
  hashOpaqueToken : String → String
  bcryptCompare : String → String → Bool
  hashPassword : String → Uuid → String
  dummyHash : String
  refreshLifetimeDays : ℕ
  invitationExpiresInDays : ℕ

/-- Milliseconds in a day. -/
def dayMs : ℕ := 24 * 60 * 60 * 1000

/-! ### Requests -/

/-- The administrative update of an account. An absent field is not written. -/
structure UpdateUserDto where
  email : Option String
  username : Option String
  isActive : Option Bool
deriving DecidableEq

/-- Adding somebody who has an account. `role` is what the given role id names. -/
structure AddWorkspaceMembershipDto where
  email : String
  role : Option SeededRoleName
  notes : Option String
deriving DecidableEq

/-- Annotating a membership. Absent notes stay, a null clears them. -/
structure UpdateWorkspaceMembershipDto where
  notes : Option (Option String)
deriving DecidableEq

/-- Inviting an address. -/
structure CreateWorkspaceInvitationDto where
  email : String
  role : Option SeededRoleName
deriving DecidableEq

/-- A new workspace. -/
structure CreateWorkspaceDto where
  name : String
  slug : String
deriving DecidableEq

/-- The status changes that share one code path. -/
inductive TransitionKind
  | suspend | reactivate | remove
deriving DecidableEq, Repr

/-- The requests that are modelled, with the caller where there is one. -/
inductive Request
  | createWorkspace (actorId : Uuid) (dto : CreateWorkspaceDto)
  | removeWorkspace (actorId workspaceId : Uuid)
  | addMembership (actorId workspaceId : Uuid) (dto : AddWorkspaceMembershipDto)
  | updateMembership (actorId workspaceId membershipId : Uuid)
      (dto : UpdateWorkspaceMembershipDto)
  | changeRole (actorId workspaceId membershipId : Uuid) (role : Option SeededRoleName)
  | transition (kind : TransitionKind) (actorId workspaceId membershipId : Uuid)
  | transferOwnership (actorId workspaceId membershipId : Uuid)
  | createInvitation (actorId workspaceId : Uuid) (dto : CreateWorkspaceInvitationDto)
  /-- `hasBudget` is the answer of the send limit. -/
  | resendInvitation (actorId workspaceId invitationId : Uuid) (hasBudget : Bool)
  | revokeInvitation (actorId workspaceId invitationId : Uuid)
  | acceptInvitation (actorId : Uuid) (actorEmail token : String)
  | updateUser (actorId : Option Uuid) (userId : Uuid) (dto : UpdateUserDto)
  | deleteUser (actorId : Option Uuid) (userId : Uuid)
  | gdprErase (userId : Uuid) (currentPassword : String)
  | login (identifier password : String)
  | refresh (presentedToken : String)
  | logout (presentedToken : String)
  | logoutAll (userId : Uuid)
  | revokeAllSessions (actorId userId : Uuid)
  | updateOwnPassword (userId : Uuid) (currentPassword newPassword : String)
  | updatePasswordAsAdmin (actorId userId : Uuid) (newPassword : String)
  | deliverPasswordReset (userId : Uuid)
  | resetPassword (email token newPassword : String)
  | updateEmail (userId : Uuid) (currentPassword newEmail : String)
  | purgeExpired
  | assignPlatformRole (actorId userId : Uuid) (role : Option SeededRoleName)
  | revokePlatformRole (actorId userId : Uuid) (role : Option SeededRoleName)
deriving DecidableEq

/-! ### Events -/

/-- The operations on a roster that need authority inside the workspace. -/
inductive RosterOperation
  | add | changeRole | suspend | reactivate | remove | transferOwnership | createInvitation
deriving DecidableEq, Repr

/-- Why every session of an account ended. -/
inductive SessionEnd
  | deactivation | deletion | erasure | passwordChange | emailChange | revocation
deriving DecidableEq, Repr

/-- How a handler answered. A `failed` handler met an error nothing provides for. -/
inductive Answer
  | succeeded | refused | failed
deriving DecidableEq, Repr

/-- What handlers report. The first group reads only, the second commits. -/
inductive Event
  /-- The guard read the caller's grants. -/
  | guarded
  /-- The sign-in read the row it judges. -/
  | credentialsRead (user : Option User)
  /-- The account that sent an invitation was read at acceptance. -/
  | inviterRead (inviterId : Uuid)
  /-- The redemption looked up the invitation of the presented token. -/
  | invitationRead (found : Option WorkspaceInvitation)
  /-- The rotation looked up the presented token. -/
  | tokenRead (found : Option RefreshToken)
  /-- The rotation read the clock for the expiry of an unspent token. -/
  | expiryChecked (tokenId : Uuid) (expiresAt now : ℕ)
  /-- The conditional consume, with this clock reading, matched no row. -/
  | consumeMissed (tokenId : Uuid) (now : ℕ)
  /-- The audit row of a replay. -/
  | replayDetected (userId familyId : Uuid)
  /-- The presentation of a known token was answered. -/
  | refreshAnswered (tokenId : Uuid) (answer : Answer)
  | workspaceCreated (workspaceId : Uuid)
  | workspaceRemoved (workspaceId : Uuid)
  /-- A roster operation with the membership it acts on and the role it hands out. -/
  | rosterChanged (op : RosterOperation) (workspaceId actorId : Uuid)
      (target : Option WorkspaceMembership) (granted : Option SeededRoleName)
  | membershipUpdated (membershipId : Uuid)
  | invitationResent (invitationId : Uuid)
  | invitationRevoked (invitationId : Uuid)
  | invitationAccepted (invitation : WorkspaceInvitation) (actorId : Uuid)
  | userUpdated (userId : Uuid)
  | passwordResetMinted (userId : Uuid)
  | sessionsEnded (reason : SessionEnd) (userId : Uuid) (cutoff : ℕ)
  | sessionStarted (userId familyId tokenId : Uuid)
  | tokenRotated (tokenId childId : Uuid)
  | familyRevoked (familyId : Uuid)
  | tokensPurged (ids : List Uuid)
  | platformRoleAssigned (userId : Uuid) (role : SeededRoleName)
  | platformRoleRevoked (userId : Uuid) (role : SeededRoleName)
deriving DecidableEq

/-! ### Handlers -/

/-- How a handler fails: with an error for the client, with a private sentinel thrown
out of a transaction, or with an error nothing provides for. -/
inductive Failure
  | api (e : ApiError)
  | replayDetected
  | sessionOwnerIneligible
  | sessionPredatesCutoff
  | invitationAlreadyConsumed
  | internal
deriving DecidableEq

/-- A handler of the system. -/
abbrev Handler (α : Type) := Txn.Program Database RowLock Event Uuid Failure α

open Txn.Program

/-- `throw`. -/
def throwApi {α : Type} (e : ApiError) : Handler α := .fail (.api e)

/-- Ascending, duplicates collapsed. -/
def sortedUnique (ids : List Uuid) : List Uuid := ids.dedup.insertionSort (· ≤ ·)

/-- `SELECT … FROM users … FOR UPDATE`. -/
def lockUserRow (userId : Uuid) : Handler Unit := lockRow (.user userId)

/-- `SELECT … FROM workspaces … FOR UPDATE`. -/
def lockWorkspaceRow (workspaceId : Uuid) : Handler Unit := lockRow (.workspace workspaceId)

/-- Several workspaces, always in ascending id order. -/
def lockWorkspaceRows (workspaceIds : List Uuid) : Handler Unit :=
  lockRows ((sortedUnique workspaceIds).map .workspace)

/-- The rows of one token family. -/
def lockRefreshTokenFamily (familyId : Uuid) : Handler Unit := do
  let ids ← select fun db => (db.refreshTokens.filter fun t => t.familyId = familyId).map (·.id)
  lockRows (ids.map .refreshToken)

/-- `UPDATE refresh_tokens … WHERE`: the rows that match when the statement starts are
locked, and those that still match under the lock are written. Answers their ids. -/
def updateManyTokens (p : RefreshToken → Bool) (f : Txn.Rewrite RefreshToken.id) :
    Handler (List Uuid) := do
  let found ← select fun db => (db.refreshTokens.filter p).map (·.id)
  lockRows (found.map .refreshToken)
  let ids ← select fun db =>
    (db.refreshTokens.filter fun t => p t && decide (t.id ∈ found)).map (·.id)
  modify fun db => db.updateTokens ids f
  pure ids

/-- `UPDATE workspace_invitations … WHERE`, in the same way. -/
def updateManyInvitations (p : WorkspaceInvitation → Bool)
    (f : Txn.Rewrite WorkspaceInvitation.id) : Handler (List Uuid) := do
  let found ← select fun db => (db.workspaceInvitations.filter p).map (·.id)
  lockRows (found.map .workspaceInvitation)
  let ids ← select fun db =>
    (db.workspaceInvitations.filter fun i => p i && decide (i.id ∈ found)).map (·.id)
  modify fun db => db.updateInvitations ids f
  pure ids

/-- `UPDATE users … WHERE id`: the row must exist. -/
def updateUserRow (userId : Uuid) (f : Txn.Rewrite User.id) : Handler User := do
  lockUserRow userId
  let found ← select fun db => db.users.find? userId
  let user ← orThrow found .internal
  modify fun db => db.updateUser userId f
  pure (f.row user)

theorem mem_sortedUnique {id : Uuid} {ids : List Uuid} : id ∈ sortedUnique ids ↔ id ∈ ids := by
  simp [sortedUnique]

theorem pairwise_sortedUnique (ids : List Uuid) : (sortedUnique ids).Pairwise (· < ·) := by
  have hle : (sortedUnique ids).Pairwise (· ≤ ·) := List.pairwise_insertionSort (· ≤ ·) ids.dedup
  have hnodup : (sortedUnique ids).Nodup :=
    (List.perm_insertionSort (· ≤ ·) ids.dedup).nodup_iff.mpr ids.nodup_dedup
  exact (hle.and hnodup).imp fun h => lt_of_le_of_ne h.1 h.2

end NestApi
