import NestApi.Authorization.Ability
import NestApi.Common.Errors
import NestApi.Txn.Machine

/-!
# The database

The tables behind accounts, sessions and workspaces, with the columns the modelled
services read or write. Roles are seeded and closed, so a role column holds the role
itself. Instants are milliseconds.
-/

namespace NestApi

/-- An identifier. -/
abbrev Uuid := String

/-- What a one-time code or link was minted for. -/
inductive OtpPurpose
  | emailVerify | passwordReset | phoneVerify
deriving DecidableEq, Repr

/-- A row of `users`. -/
structure User where
  id : Uuid
  email : String
  username : Option String
  password : String
  passwordChangedAt : Option ℕ
  otpHash : Option String
  otpPurpose : Option OtpPurpose
  otpExpiresAt : Option ℕ
  emailVerifiedAt : Option ℕ
  isActive : Bool
  deletedAt : Option ℕ
  deletedBy : Option Uuid
  updatedBy : Option Uuid
deriving DecidableEq

/-- A row of `workspaces`. -/
structure Workspace where
  id : Uuid
  name : String
  slug : String
  createdBy : Option Uuid
  updatedBy : Option Uuid
  deletedAt : Option ℕ
  deletedBy : Option Uuid
deriving DecidableEq

/-- A row of `workspace_memberships`. -/
structure WorkspaceMembership where
  id : Uuid
  workspaceId : Uuid
  userId : Uuid
  role : SeededRoleName
  status : WorkspaceMembershipStatus
  joinedAt : ℕ
  endedAt : Option ℕ
  invitedBy : Option Uuid
  notes : Option String
  createdBy : Option Uuid
  updatedBy : Option Uuid
deriving DecidableEq

/-- A row of `workspace_invitations`. -/
structure WorkspaceInvitation where
  id : Uuid
  workspaceId : Uuid
  email : String
  invitedUserId : Option Uuid
  role : SeededRoleName
  tokenHash : String
  status : WorkspaceInvitationStatus
  invitedBy : Option Uuid
  expiresAt : ℕ
  acceptedAt : Option ℕ
  acceptedBy : Option Uuid
  revokedAt : Option ℕ
  revokedBy : Option Uuid
  createdBy : Option Uuid
  updatedBy : Option Uuid
deriving DecidableEq

/-- A row of `refresh_tokens`. -/
structure RefreshToken where
  id : Uuid
  createdAt : ℕ
  userId : Uuid
  tokenHash : String
  familyId : Uuid
  expiresAt : ℕ
  consumedAt : Option ℕ
  revokedAt : Option ℕ
deriving DecidableEq

/-- A row of `user_roles`: one platform role of one user. -/
structure UserRole where
  userId : Uuid
  role : SeededRoleName
deriving DecidableEq

/-- The tables. A user role is its own key. -/
structure Database where
  users : Txn.Table User.id
  workspaces : Txn.Table Workspace.id
  workspaceMemberships : Txn.Table WorkspaceMembership.id
  workspaceInvitations : Txn.Table WorkspaceInvitation.id
  refreshTokens : Txn.Table RefreshToken.id
  userRoles : Txn.Table (id : UserRole → UserRole)

/-- The rows that are locked, explicitly or by a write. -/
inductive RowLock
  | user (id : Uuid)
  | workspace (id : Uuid)
  | workspaceInvitation (id : Uuid)
  | refreshToken (id : Uuid)
deriving DecidableEq

/-- The membership is an active ownership. It says nothing about the account. -/
def WorkspaceMembership.IsActiveOwner (m : WorkspaceMembership) : Prop :=
  m.role = .workspaceOwner ∧ m.status = .active

instance (m : WorkspaceMembership) : Decidable m.IsActiveOwner :=
  inferInstanceAs (Decidable (_ ∧ _))

/-- A membership without its annotation: the notes, and who wrote last. -/
def WorkspaceMembership.core (m : WorkspaceMembership) : WorkspaceMembership :=
  { m with notes := none, updatedBy := none }

/-- The account can still sign in. -/
def User.IsUsable (u : User) : Prop := u.deletedAt = none ∧ u.isActive = true

instance (u : User) : Decidable u.IsUsable := inferInstanceAs (Decidable (_ ∧ _))

/-- A token that can still be exchanged, its expiry apart. -/
def RefreshToken.IsLive (t : RefreshToken) : Prop := t.consumedAt = none ∧ t.revokedAt = none

instance (t : RefreshToken) : Decidable t.IsLive := inferInstanceAs (Decidable (_ ∧ _))

namespace Database

variable (db : Database)

/-- The account exists, is not deleted and is active. -/
def Usable (userId : Uuid) : Prop := ∃ u ∈ db.users, u.id = userId ∧ u.IsUsable

/-- The workspace exists and is not soft-deleted. -/
def LiveWorkspace (workspaceId : Uuid) : Prop :=
  ∃ ws ∈ db.workspaces, ws.id = workspaceId ∧ ws.deletedAt = none

/-- The user holds an active ownership of the workspace. -/
def ActiveOwner (workspaceId userId : Uuid) : Prop :=
  ∃ m ∈ db.workspaceMemberships,
    m.workspaceId = workspaceId ∧ m.userId = userId ∧ m.IsActiveOwner

/-- An active ownership of the workspace whose account can act. -/
def EffectiveOwner (workspaceId : Uuid) (m : WorkspaceMembership) : Prop :=
  m ∈ db.workspaceMemberships ∧ m.workspaceId = workspaceId ∧ m.IsActiveOwner ∧
    db.Usable m.userId

/-- The token family still has a token that can be exchanged. -/
def LiveFamily (familyId : Uuid) : Prop :=
  ∃ t ∈ db.refreshTokens, t.familyId = familyId ∧ t.IsLive

/-- `findFirst` among live users, with their deleted ones hidden. -/
def scopedUser? (userId : Uuid) : Option User :=
  (db.users.find? userId).filter fun u => u.deletedAt = none

/-- `findFirst` among live workspaces. -/
def scopedWorkspace? (workspaceId : Uuid) : Option Workspace :=
  (db.workspaces.find? workspaceId).filter fun ws => ws.deletedAt = none

/-- The one membership row of a workspace and a user. -/
def membershipOf? (workspaceId userId : Uuid) : Option WorkspaceMembership :=
  db.workspaceMemberships.rows.find? fun m => m.workspaceId = workspaceId ∧ m.userId = userId

/-- `isUsable` is the executable form of `Usable`. -/
def isUsable (userId : Uuid) : Bool :=
  db.users.rows.any fun u => u.id = userId && decide u.IsUsable

/-- The executable form of `LiveWorkspace`. -/
def isLiveWorkspace (workspaceId : Uuid) : Bool :=
  db.workspaces.rows.any fun ws => ws.id = workspaceId && ws.deletedAt = none

variable {db}

theorem isUsable_iff {userId : Uuid} : db.isUsable userId = true ↔ db.Usable userId := by
  simp [isUsable, Usable, Txn.Table.mem_def]

theorem isLiveWorkspace_iff {workspaceId : Uuid} :
    db.isLiveWorkspace workspaceId = true ↔ db.LiveWorkspace workspaceId := by
  simp [isLiveWorkspace, LiveWorkspace, Txn.Table.mem_def]

theorem of_scopedUser? {userId : Uuid} {u : User} (h : db.scopedUser? userId = some u) :
    u ∈ db.users ∧ u.id = userId ∧ u.deletedAt = none := by
  obtain ⟨hfind, hlive⟩ := Option.filter_eq_some_iff.mp h
  obtain ⟨hmem, hid⟩ := Txn.Table.find?_eq_some.mp hfind
  exact ⟨hmem, hid, by simpa using hlive⟩

theorem of_membershipOf? {workspaceId userId : Uuid} {m : WorkspaceMembership}
    (h : db.membershipOf? workspaceId userId = some m) :
    m ∈ db.workspaceMemberships ∧ m.workspaceId = workspaceId ∧ m.userId = userId := by
  have hkey := List.find?_some h
  simp only [Bool.decide_and, Bool.and_eq_true, decide_eq_true_eq] at hkey
  exact ⟨List.mem_of_find?_eq_some h, hkey⟩

theorem membershipOf?_eq_none {workspaceId userId : Uuid} :
    db.membershipOf? workspaceId userId = none ↔
      ∀ m ∈ db.workspaceMemberships, ¬ (m.workspaceId = workspaceId ∧ m.userId = userId) := by
  simp [membershipOf?, List.find?_eq_none, Txn.Table.mem_def]

end Database

end NestApi
