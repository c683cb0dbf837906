import NestApi.Db.Schema

/-!
# Writing statements

The inserts, updates and deletes of the services. An update names the rows it reaches
by id: which rows those are was decided when the statement ran, under their locks.
-/

namespace NestApi

/-! ### Row updates -/

open Txn

/-- Columns of a former member who joins again. A missing note keeps the old one. -/
def WorkspaceMembership.rejoined (role : SeededRoleName) (joinedAt : ℕ) (notes : Option String)
    (actorId : Uuid) : Rewrite WorkspaceMembership.id where
  row m :=
    { m with
      role, status := .active, joinedAt, endedAt := none, notes := notes.or m.notes,
      updatedBy := some actorId }
  key_row _ := rfl

/-- A member with another role. -/
def WorkspaceMembership.withRole (role : SeededRoleName) (actorId : Uuid) :
    Rewrite WorkspaceMembership.id where
  row m := { m with role, updatedBy := some actorId }
  key_row _ := rfl

/-- A member with another status. Only an ending stamps `endedAt`. -/
def WorkspaceMembership.withStatus (status : WorkspaceMembershipStatus) (endedAt : Option ℕ)
    (actorId : Uuid) : Rewrite WorkspaceMembership.id where
  row m := { m with status, endedAt := endedAt.or m.endedAt, updatedBy := some actorId }
  key_row _ := rfl

/-- A member with other notes, when they are given, and a new stamp. -/
def WorkspaceMembership.annotated (notes : Option (Option String)) (actorId : Uuid) :
    Rewrite WorkspaceMembership.id where
  row m := { m with notes := notes.getD m.notes, updatedBy := some actorId }
  key_row _ := rfl

/-- A lapsed invitation that makes room for another one. -/
def WorkspaceInvitation.expired (actorId : Uuid) : Rewrite WorkspaceInvitation.id where
  row i := { i with status := .expired, updatedBy := some actorId }
  key_row _ := rfl

/-- A withdrawn invitation. -/
def WorkspaceInvitation.revoked (now : ℕ) (actorId : Uuid) : Rewrite WorkspaceInvitation.id where
  row i :=
    { i with
      status := .revoked, revokedAt := some now, revokedBy := some actorId,
      updatedBy := some actorId }
  key_row _ := rfl

/-- A redeemed invitation. -/
def WorkspaceInvitation.accepted (now : ℕ) (actorId : Uuid) : Rewrite WorkspaceInvitation.id where
  row i :=
    { i with
      status := .accepted, acceptedAt := some now, acceptedBy := some actorId,
      updatedBy := some actorId }
  key_row _ := rfl

/-- An invitation on a fresh token. -/
def WorkspaceInvitation.resent (tokenHash : String) (expiresAt : ℕ) (actorId : Uuid) :
    Rewrite WorkspaceInvitation.id where
  row i := { i with tokenHash, expiresAt, updatedBy := some actorId }
  key_row _ := rfl

/-- An exchanged token. -/
def RefreshToken.consumed (now : ℕ) : Rewrite RefreshToken.id where
  row t := { t with consumedAt := some now }
  key_row _ := rfl

/-- A withdrawn token. -/
def RefreshToken.revoked (now : ℕ) : Rewrite RefreshToken.id where
  row t := { t with revokedAt := some now }
  key_row _ := rfl

/-- A soft-deleted workspace. -/
def Workspace.deleted (now : ℕ) (actorId : Uuid) : Rewrite Workspace.id where
  row ws := { ws with deletedAt := some now, deletedBy := some actorId }
  key_row _ := rfl

namespace Database

variable (db : Database)

/-! ### Statements -/

/-- One new workspace. -/
def insertWorkspace (ws : Workspace) : Database :=
  { db with workspaces := db.workspaces.insert ws }

/-- One new membership. -/
def insertMembership (m : WorkspaceMembership) : Database :=
  { db with workspaceMemberships := db.workspaceMemberships.insert m }

/-- One new invitation. -/
def insertInvitation (i : WorkspaceInvitation) : Database :=
  { db with workspaceInvitations := db.workspaceInvitations.insert i }

/-- One new refresh token. -/
def insertToken (t : RefreshToken) : Database :=
  { db with refreshTokens := db.refreshTokens.insert t }

/-- One platform role more. A role that is held already stays as it is. -/
def insertUserRole (r : UserRole) : Database :=
  { db with userRoles := db.userRoles.insert r }

/-- Rewrite one account. -/
def updateUser (id : Uuid) (f : Rewrite User.id) : Database :=
  { db with users := db.users.update [id] f }

/-- Rewrite the workspaces with the given ids. -/
def updateWorkspaces (ids : List Uuid) (f : Rewrite Workspace.id) : Database :=
  { db with workspaces := db.workspaces.update ids f }

/-- Rewrite the memberships with the given ids. -/
def updateMemberships (ids : List Uuid) (f : Rewrite WorkspaceMembership.id) : Database :=
  { db with workspaceMemberships := db.workspaceMemberships.update ids f }

/-- Rewrite the invitations with the given ids. -/
def updateInvitations (ids : List Uuid) (f : Rewrite WorkspaceInvitation.id) : Database :=
  { db with workspaceInvitations := db.workspaceInvitations.update ids f }

/-- Rewrite the refresh tokens with the given ids. -/
def updateTokens (ids : List Uuid) (f : Rewrite RefreshToken.id) : Database :=
  { db with refreshTokens := db.refreshTokens.update ids f }

/-- Delete the refresh tokens with the given ids. -/
def deleteTokens (ids : List Uuid) : Database :=
  { db with refreshTokens := db.refreshTokens.delete ids }

/-- One platform role less. -/
def deleteUserRole (r : UserRole) : Database :=
  { db with userRoles := db.userRoles.delete [r] }

variable {db}

@[simp] theorem updateWorkspaces_nil {f : Rewrite Workspace.id} :
    db.updateWorkspaces [] f = db := by
  simp [updateWorkspaces]

@[simp] theorem updateTokens_nil {f : Rewrite RefreshToken.id} : db.updateTokens [] f = db := by
  simp [updateTokens]

end Database

end NestApi
