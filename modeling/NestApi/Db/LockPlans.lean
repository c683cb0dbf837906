import Mathlib.Data.Prod.Lex
import Mathlib.Data.String.Basic
import NestApi.Handler
import NestApi.Txn.LockOrder

/-!
# The row locks of the transactions

The rows that each transaction of the services locks, statement by statement: by `FOR UPDATE`,
by writing them, and through the foreign keys of what it inserts. A row of a child table is
named after its parent, which no write changes. A transaction may end after any prefix of its
requests, so what it decides on the way is covered; the rows that an `updateMany` finds come in
any order.
-/

namespace NestApi

open Txn

/-- A row that is locked. -/
inductive LockedRow
  | user (userId : Uuid)
  | workspace (workspaceId : Uuid)
  | workspaceInvitation (workspaceId id : Uuid)
  | workspaceMembership (workspaceId id : Uuid)
  | refreshToken (userId id : Uuid)
  | fileAsset (uploadedBy id : Uuid)
  | role (name : SeededRoleName)
deriving DecidableEq

/-- A transaction of the services, with the rows it finds. -/
inductive Transaction
  /-- `UsersService.deactivate`. -/
  | deactivate (userId : Uuid) (owned tokens : List Uuid)
  | deleteAccount (userId : Uuid) (owned tokens : List Uuid)
  | gdprErase (userId : Uuid) (owned coOwned : List Uuid) (picture : Option Uuid)
      (unattached tokens : List Uuid)
  | addMembership (workspaceId membershipId userId actorId : Uuid) (role : SeededRoleName)
      (rejoins : Bool)
  | changeRole (workspaceId membershipId userId : Uuid) (role : SeededRoleName)
  | suspend (workspaceId membershipId : Uuid) (withdrawn : List Uuid)
  | reactivate (workspaceId membershipId userId : Uuid)
  | removeMembership (workspaceId membershipId : Uuid) (withdrawn : List Uuid)
  | transferOwnership (workspaceId membershipId userId : Uuid) (outgoing : List Uuid)
  | createInvitation (workspaceId invitationId : Uuid) (invitedUserId : Option Uuid)
      (role : SeededRoleName) (lapsed : List Uuid)
  | resendInvitation (workspaceId invitationId : Uuid)
  | revokeInvitation (workspaceId invitationId : Uuid)
  | acceptInvitation (workspaceId invitationId membershipId actorId : Uuid)
      (invitedBy : Option Uuid) (role : SeededRoleName) (rejoins : Bool)
  | createWorkspace (workspaceId membershipId actorId : Uuid)
  | removeWorkspace (workspaceId : Uuid)
  | rotate (userId tokenId childId : Uuid) (family : List Uuid)
  | revokeFamily (userId : Uuid) (family : List Uuid)
  | endAllSessions (userId : Uuid) (tokens : List Uuid)
  | setProfileImage (userId : Uuid) (requested current : Option Uuid)

namespace LockPlan

/-! ### Statements -/

/-- `SELECT … FOR UPDATE`. -/
def forUpdate (row : LockedRow) : LockRequest LockedRow := ⟨row, .update⟩

/-- An update that leaves the unique columns alone. -/
def writes (row : LockedRow) : LockRequest LockedRow := ⟨row, .noKeyUpdate⟩

/-- An update of a unique column. -/
def writesKey (row : LockedRow) : LockRequest LockedRow := ⟨row, .update⟩

/-- A new row. -/
def inserts (row : LockedRow) : LockRequest LockedRow := ⟨row, .update⟩

/-- The row that a foreign key refers to. -/
def references (row : LockedRow) : LockRequest LockedRow := ⟨row, .keyShare⟩

/-! ### Helpers of the services -/

def lockUserRow (userId : Uuid) : List (LockRequest LockedRow) := [forUpdate (.user userId)]

def lockWorkspaceRow (workspaceId : Uuid) : List (LockRequest LockedRow) :=
  [forUpdate (.workspace workspaceId)]

/-- Ascending by id. -/
def lockWorkspaceRows (workspaceIds : List Uuid) : List (LockRequest LockedRow) :=
  (sortedUnique workspaceIds).map fun id => forUpdate (.workspace id)

def lockRefreshTokenFamily (userId : Uuid) (family : List Uuid) : List (LockRequest LockedRow) :=
  family.map fun id => forUpdate (.refreshToken userId id)

/-- The write of the account, then its unrevoked tokens. -/
def endAllSessionsInTransaction (account : LockRequest LockedRow) (userId : Uuid)
    (tokens : List Uuid) : List (LockRequest LockedRow) :=
  account :: tokens.map fun id => writes (.refreshToken userId id)

/-- The owned workspaces are locked; those that nobody else owns are closed. -/
def closeSolelyOwnedWorkspaces (owned coOwned : List Uuid) : List (LockRequest LockedRow) :=
  lockWorkspaceRows owned ++
    (owned.filter fun id => id ∉ coOwned).map fun id => writes (.workspace id)

/-- A new membership and the rows it references. -/
def insertMembership (workspaceId membershipId userId : Uuid) (role : SeededRoleName)
    (invitedBy : Option Uuid) : List (LockRequest LockedRow) :=
  [inserts (.workspaceMembership workspaceId membershipId), references (.workspace workspaceId),
    references (.user userId), references (.role role)] ++
    invitedBy.toList.map fun id => references (.user id)

/-- A membership gets another role. -/
def rewriteRole (workspaceId membershipId : Uuid) (role : SeededRoleName) :
    List (LockRequest LockedRow) :=
  [writes (.workspaceMembership workspaceId membershipId), references (.role role)]

/-- A former member comes back, or somebody joins. -/
def upsertMembership (workspaceId membershipId userId : Uuid) (role : SeededRoleName)
    (invitedBy : Option Uuid) (rejoins : Bool) : List (LockRequest LockedRow) :=
  if rejoins = true then rewriteRole workspaceId membershipId role
  else insertMembership workspaceId membershipId userId role invitedBy

/-- A membership that ends or is suspended, after the invitations of its member. -/
def leave (workspaceId membershipId : Uuid) (withdrawn : List Uuid) :
    List (LockRequest LockedRow) :=
  lockWorkspaceRow workspaceId ++
    (withdrawn.map fun id => writes (.workspaceInvitation workspaceId id)) ++
      [writes (.workspaceMembership workspaceId membershipId)]

def insertToken (userId tokenId : Uuid) : List (LockRequest LockedRow) :=
  [inserts (.refreshToken userId tokenId), references (.user userId)]

/-- The requests of a transaction, in order. -/
def of : Transaction → List (LockRequest LockedRow)
  | .deactivate userId owned tokens | .deleteAccount userId owned tokens =>
    lockUserRow userId ++ lockWorkspaceRows owned ++
      endAllSessionsInTransaction (writes (.user userId)) userId tokens
  | .gdprErase userId owned coOwned picture unattached tokens =>
    lockUserRow userId ++ closeSolelyOwnedWorkspaces owned coOwned ++
      ((picture.toList ++ unattached).map fun id => writes (.fileAsset userId id)) ++
        endAllSessionsInTransaction (writesKey (.user userId)) userId tokens
  | .addMembership workspaceId membershipId userId actorId role rejoins =>
    lockUserRow userId ++ lockWorkspaceRow workspaceId ++
      upsertMembership workspaceId membershipId userId role (some actorId) rejoins
  | .changeRole workspaceId membershipId userId role =>
    lockUserRow userId ++ lockWorkspaceRow workspaceId ++ rewriteRole workspaceId membershipId role
  | .suspend workspaceId membershipId withdrawn
  | .removeMembership workspaceId membershipId withdrawn =>
    leave workspaceId membershipId withdrawn
  | .reactivate workspaceId membershipId userId =>
    lockUserRow userId ++ lockWorkspaceRow workspaceId ++
      [writes (.workspaceMembership workspaceId membershipId)]
  | .transferOwnership workspaceId membershipId userId outgoing =>
    lockUserRow userId ++ lockWorkspaceRow workspaceId ++
      (outgoing.flatMap fun id => rewriteRole workspaceId id .workspaceAdmin) ++
        rewriteRole workspaceId membershipId .workspaceOwner
  | .createInvitation workspaceId invitationId invitedUserId role lapsed =>
    lockWorkspaceRow workspaceId ++
      (lapsed.map fun id => writes (.workspaceInvitation workspaceId id)) ++
        [inserts (.workspaceInvitation workspaceId invitationId),
          references (.workspace workspaceId), references (.role role)] ++
          invitedUserId.toList.map fun id => references (.user id)
  | .resendInvitation workspaceId invitationId =>
    [writesKey (.workspaceInvitation workspaceId invitationId)]
  | .revokeInvitation workspaceId invitationId =>
    [writes (.workspaceInvitation workspaceId invitationId)]
  | .acceptInvitation workspaceId invitationId membershipId actorId invitedBy role rejoins =>
    lockUserRow actorId ++ lockWorkspaceRow workspaceId ++
      [writes (.workspaceInvitation workspaceId invitationId)] ++
        upsertMembership workspaceId membershipId actorId role invitedBy rejoins
  | .createWorkspace workspaceId membershipId actorId =>
    lockUserRow actorId ++ [inserts (.workspace workspaceId)] ++
      insertMembership workspaceId membershipId actorId .workspaceOwner none
  | .removeWorkspace workspaceId => [writes (.workspace workspaceId)]
  | .rotate userId tokenId childId family =>
    lockUserRow userId ++ lockRefreshTokenFamily userId family ++
      [writes (.refreshToken userId tokenId)] ++ insertToken userId childId
  | .revokeFamily userId family =>
    lockUserRow userId ++ lockRefreshTokenFamily userId family ++
      family.map fun id => writes (.refreshToken userId id)
  | .endAllSessions userId tokens =>
    lockUserRow userId ++ endAllSessionsInTransaction (writes (.user userId)) userId tokens
  -- only the person's own upload can be claimed, so the current picture is one as well
  | .setProfileImage userId requested current =>
    lockUserRow userId ++
      ((requested.toList ++ current.toList).map fun id => writes (.fileAsset userId id)) ++
        [writesKey (.user userId)] ++
          requested.toList.map fun id => references (.fileAsset userId id)

end LockPlan

/-! ### The documented order -/

/-- The place of a row in the documented order: by table, and by id within users and within
workspaces. The order does not name roles. -/
def LockedRow.place : LockedRow → Option (ℕ ×ₗ String)
  | .user userId => some (toLex (0, userId))
  | .workspace workspaceId => some (toLex (1, workspaceId))
  | .workspaceInvitation _ _ => some (toLex (2, ""))
  | .workspaceMembership _ _ => some (toLex (3, ""))
  | .refreshToken _ _ => some (toLex (4, ""))
  | .fileAsset _ _ => some (toLex (5, ""))
  | .role _ => none

/-- A request is for a row that was locked before, or comes after all of them. -/
def InOrder (before : List (LockRequest LockedRow)) (r : LockRequest LockedRow) : Prop :=
  r.row ∈ before.map LockRequest.row ∨
    ∀ q ∈ before, ∀ p ∈ q.row.place, ∀ p' ∈ r.row.place, p ≤ p'

/-- The transaction acquires its locks in the documented order. -/
def Transaction.Ordered (k : Transaction) : Prop := EveryRequest InOrder [] (LockPlan.of k)

/-- What is inserted references no account but the one whose row is locked, and files are not
locked before tokens. -/
def Transaction.KeepsOrder : Transaction → Prop
  | .addMembership _ _ userId actorId _ rejoins => rejoins = true ∨ actorId = userId
  | .createInvitation _ _ invitedUserId _ _ => invitedUserId = none
  | .acceptInvitation _ _ _ actorId invitedBy _ rejoins =>
    rejoins = true ∨ ∀ id ∈ invitedBy, id = actorId
  | .gdprErase _ _ _ picture unattached tokens => picture.toList ++ unattached = [] ∨ tokens = []
  | _ => True

end NestApi
