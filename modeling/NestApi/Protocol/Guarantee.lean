import NestApi.Protocol.History

/-!
# What a process may commit

For each event, the write it stands for and what is known when it commits: the rows that
were locked, what was read under those locks, and what was read before them and may be
stale by then. This is the only description of the services that the claims about runs
use.
-/

namespace NestApi

open Txn Authorization WorkspaceMemberships WorkspaceRoleAssignmentPolicy

/-! ### Ownership -/

/-- An update without the ownership check took a usable account out of service. -/
def Stale (w : SystemWorld) : Prop :=
  ∃ e l, (e :: l) <:+ w.log ∧ ∃ userId, e.event = .userUpdated userId ∧
    (stateOf w.init l).Usable userId ∧ ¬ e.db.Usable userId

/-- A live workspace has an owner who can act among the memberships in `P`. The check
behind this counts on accounts being taken out of service under the workspace lock. -/
def OwnedBy (P : WorkspaceMembership → Prop) (w : SystemWorld) (workspaceId : Uuid) : Prop :=
  Stale w ∨ ¬ w.db.LiveWorkspace workspaceId ∨
    ∃ m, w.db.EffectiveOwner workspaceId m ∧ P m

/-! ### Authority -/

/-- The permission a roster operation requires of its caller. -/
def RosterOperation.required : RosterOperation → PermissionDefinition
  | .add => createWorkspaceMembership
  | .changeRole => assignRoleWorkspaceMembership
  | .suspend => suspendWorkspaceMembership
  | .reactivate => suspendWorkspaceMembership
  | .remove => deleteWorkspaceMembership
  | .transferOwnership => transferWorkspaceOwnership
  | .createInvitation => createWorkspaceInvitation

/-- A roster request: what it asks for, who asks, and where. -/
def Request.roster : Request → Option (RosterOperation × Uuid × Uuid)
  | .addMembership actorId workspaceId _ => some (.add, actorId, workspaceId)
  | .changeRole actorId workspaceId _ _ => some (.changeRole, actorId, workspaceId)
  | .transition .suspend actorId workspaceId _ => some (.suspend, actorId, workspaceId)
  | .transition .reactivate actorId workspaceId _ => some (.reactivate, actorId, workspaceId)
  | .transition .remove actorId workspaceId _ => some (.remove, actorId, workspaceId)
  | .transferOwnership actorId workspaceId _ => some (.transferOwnership, actorId, workspaceId)
  | .createInvitation actorId workspaceId _ => some (.createInvitation, actorId, workspaceId)
  | _ => none

/-- A role reaches a rank when it is not below it. -/
def Outranks (role : SeededRoleName) (target : Option WorkspaceMembership)
    (granted : Option SeededRoleName) : Prop :=
  (∀ m ∈ target, m.role.rank ≤ role.rank) ∧ ∀ r ∈ granted, r.rank ≤ role.rank

/-- The workspace was live at some point since the history had length `n`. -/
def SeenLive (w : SystemWorld) (n : ℕ) (workspaceId : Uuid) : Prop :=
  ∃ s, w.Since n s ∧ s.LiveWorkspace workspaceId

/-- The authority a roster operation was judged by. The permission held in `d`, when the
guard read the caller's grants; the rank, and the workspace's existence where the operation
asks for it, at some point after the first `n` entries and before the commit. -/
structure Authorized (w : SystemWorld) (op : RosterOperation) (workspaceId actorId : Uuid)
    (target : Option WorkspaceMembership) (granted : Option SeededRoleName) (n : ℕ)
    (d : Database) : Prop where
  permits : d.Permits workspaceId actorId op.required
  rank : d.ManageAll actorId ∨ ∃ s, w.Since n s ∧
    ∃ role, s.Member workspaceId actorId role ∧ Outranks role target granted
  live : op ≠ .add → SeenLive w n workspaceId

/-- What the acceptance of an invitation knows about the inviter: usable when read, and
within the assignment policy on a later read. Membership and workspace are as they are
now, under the workspace lock. Everything platform-wide may have changed since. -/
def InviterChecked (a : Agent Request) (w : SystemWorld) (invitation : WorkspaceInvitation)
    (inviterId : Uuid) : Prop :=
  ∃ l d, (⟨a, .inviterRead inviterId, d⟩ :: l) <:+ w.log ∧ d.Usable inviterId ∧
    ∃ g, w.Since (l.length + 1) g ∧
      (invitation.role ∈ nonPrivilegedWorkspaceRoles ∨ g.ManageAll inviterId ∨
        w.db.LiveWorkspace invitation.workspaceId ∧
          ∃ role, w.db.Member invitation.workspaceId inviterId role ∧
            assignRoleWorkspaceMembership ∈ role.permissions) ∧
      (g.ManageAll inviterId ∨ ∃ role, w.db.Member invitation.workspaceId inviterId role ∧
        invitation.role.rank ≤ role.rank)

/-! ### Roster writes -/

/-- The user may be given an active membership: the account is usable and locked. -/
def Appointable (L : RowLock → Prop) (w : SystemWorld) (userId : Uuid) : Prop :=
  L (.user userId) ∧ w.db.Usable userId

/-- Someone joins: a new row, or the row of a former member. -/
inductive Joins (a : Agent Request) (L : RowLock → Prop) (w : SystemWorld)
    (workspaceId userId : Uuid) (role : SeededRoleName) (db : Database) : Database → Prop
  | created (m : WorkspaceMembership) (hworkspace : m.workspaceId = workspaceId)
      (huser : m.userId = userId) (hrole : m.role = role) (hactive : m.status = .active)
      (hnew : w.db.membershipOf? workspaceId userId = none) (hdrawn : Drawn a w m.id)
      (hexists : ∃ ws ∈ w.db.workspaces, ws.id = workspaceId) (hended : m.endedAt = none) :
      Joins a L w workspaceId userId role db (db.insertMembership m)
  | rejoined (m : WorkspaceMembership) (now : ℕ) (notes : Option String) (actorId : Uuid)
      (hmem : m ∈ w.db.workspaceMemberships) (hworkspace : m.workspaceId = workspaceId)
      (huser : m.userId = userId) (hleft : m.status = .left) :
      Joins a L w workspaceId userId role db
        (db.updateMemberships [m.id] (WorkspaceMembership.rejoined role now notes actorId))

/-- The writes of the roster operations, with what was checked under the workspace lock.
The operation began after the first `n` entries. The membership that was read is the one
that is written, up to its annotation, which changes without that lock. -/
inductive RosterWrite (a : Agent Request) (L : RowLock → Prop) (w : SystemWorld)
    (workspaceId actorId : Uuid) (n : ℕ) : RosterOperation → Option WorkspaceMembership →
      Option SeededRoleName → Database → Prop
  | add (userId : Uuid) (role : SeededRoleName) (db' : Database)
      (happoint : Appointable L w userId)
      (hjoins : Joins a L w workspaceId userId role w.db db') :
      RosterWrite a L w workspaceId actorId n .add none (some role) db'
  | changeRole (existing m : WorkspaceMembership) (role : SeededRoleName)
      (hlike : existing.Like m)
      (hmem : m ∈ w.db.workspaceMemberships) (hworkspace : m.workspaceId = workspaceId)
      (happoint : Appointable L w m.userId)
      (howned : m.role = .workspaceOwner → role ≠ .workspaceOwner →
        OwnedBy (fun other => other.id ≠ m.id) w workspaceId) :
      RosterWrite a L w workspaceId actorId n .changeRole (some existing) (some role)
        (w.db.updateMemberships [m.id] (WorkspaceMembership.withRole role actorId))
  | reactivate (existing m : WorkspaceMembership) (hlike : existing.Like m)
      (hmem : m ∈ w.db.workspaceMemberships)
      (hworkspace : m.workspaceId = workspaceId) (happoint : Appointable L w m.userId)
      (hsuspended : m.status = .suspended) :
      RosterWrite a L w workspaceId actorId n .reactivate (some existing) none
        (w.db.updateMemberships [m.id] (WorkspaceMembership.withStatus .active none actorId))
  | leave (op : RosterOperation) (toStatus : WorkspaceMembershipStatus)
      (existing m : WorkspaceMembership) (now : ℕ) (endedAt : Option ℕ) (withdrawn : List Uuid)
      (hlike : existing.Like m)
      (hkind : op = .suspend ∧ m.status = .active ∧ toStatus = .suspended ∧ endedAt = none ∨
        op = .remove ∧ m.status ≠ .left ∧ toStatus = .left ∧ endedAt ≠ none)
      (hmem : m ∈ w.db.workspaceMemberships) (hworkspace : m.workspaceId = workspaceId)
      (hlocked : ∀ id ∈ withdrawn, L (.workspaceInvitation id))
      (hwithdrawn : ∃ s, w.Since n s ∧ ∀ i ∈ w.db.workspaceInvitations, i.id ∈ withdrawn ↔
        isPendingInvitationOf workspaceId m.userId (s.users.find? m.userId) i = true)
      (howned : m.IsActiveOwner → OwnedBy (fun other => other.id ≠ m.id) w workspaceId) :
      RosterWrite a L w workspaceId actorId n op (some existing) none
        ((w.db.updateInvitations withdrawn
          (WorkspaceInvitation.revoked now actorId)).updateMemberships
            [m.id] (WorkspaceMembership.withStatus toStatus endedAt actorId))
  | transferOwnership (existing m : WorkspaceMembership) (outgoing : List Uuid)
      (hlike : existing.Like m) (hlive : w.db.LiveWorkspace workspaceId)
      (hmem : m ∈ w.db.workspaceMemberships) (hworkspace : m.workspaceId = workspaceId)
      (happoint : Appointable L w m.userId) (hactive : m.status = .active)
      (hother : m.userId ≠ actorId)
      (houtgoing : ∀ other ∈ w.db.workspaceMemberships, other.id ∈ outgoing ↔
        other.workspaceId = workspaceId ∧ other.IsActiveOwner ∧ other.id ≠ m.id)
      (hrequested : a.req = .transferOwnership actorId workspaceId m.id) :
      RosterWrite a L w workspaceId actorId n .transferOwnership (some existing)
        (some .workspaceOwner) ((w.db.updateMemberships outgoing
          (WorkspaceMembership.withRole .workspaceAdmin actorId)).updateMemberships
            [m.id] (WorkspaceMembership.withRole .workspaceOwner actorId))
  | createInvitation (i : WorkspaceInvitation) (role : SeededRoleName) (lapsed : List Uuid)
      (hrole : i.role = role) (hpending : i.status = .pending)
      (hlocked : ∀ id ∈ lapsed, L (.workspaceInvitation id))
      (hlapsed : ∀ other ∈ w.db.workspaceInvitations, other.id ∈ lapsed →
        other.status = .pending ∧ other.workspaceId = workspaceId)
      (hworkspace : i.workspaceId = workspaceId) (hinviter : i.invitedBy = some actorId)
      (hdrawn : Drawn a w i.id) :
      RosterWrite a L w workspaceId actorId n .createInvitation none (some role)
        ((w.db.updateInvitations lapsed (WorkspaceInvitation.expired actorId)).insertInvitation i)

/-! ### Session writes -/

/-- Under the lock of the account, every unrevoked token of it is among the revoked ones,
and the cutoff is the next whole second of an instant that every earlier cutoff precedes. -/
structure EndsSessions (L : RowLock → Prop) (w : SystemWorld) (userId : Uuid) (cutoff : ℕ)
    (revoked : List Uuid) : Prop where
  lock : L (.user userId)
  complete : ∀ t ∈ w.db.refreshTokens, t.userId = userId → t.revokedAt = none → t.id ∈ revoked
  locked : ∀ id ∈ revoked, L (.refreshToken id)
  instant : ∃ t, t ≤ w.now ∧ cutoff = nextWholeSecond t
  latest : ∀ e ∈ w.log, ∀ reason earlier,
    e.event = .sessionsEnded reason userId earlier → earlier ≤ cutoff

/-- The account leaves service: every live workspace it owns is locked, and has another
owner or is closed. -/
def LeavesService (L : RowLock → Prop) (w : SystemWorld) (userId : Uuid)
    (closed : List Uuid) : Prop :=
  ∀ workspaceId, w.db.LiveWorkspace workspaceId → w.db.ActiveOwner workspaceId userId →
    L (.workspace workspaceId) ∧
      (workspaceId ∈ closed ∨ OwnedBy (fun other => other.userId ≠ userId) w workspaceId)

/-- What the reason of a session end says about the row that is written. -/
def EndReason (a : Agent Request) (L : RowLock → Prop) (w : SystemWorld) (userId : Uuid)
    (data : UserUpdateInput) (closed : List Uuid) : SessionEnd → Prop
  | .deactivation => closed = [] ∧ LeavesService L w userId closed ∧
      data.isActive = some false ∧ data.deletedAt = none ∧
        ∃ actorId dto, a.req = .updateUser actorId userId dto
  | .deletion => closed = [] ∧ LeavesService L w userId closed ∧ data.isActive = none
  | .erasure => LeavesService L w userId closed ∧ (∀ id ∈ closed, L (.workspace id)) ∧
      data.isActive = none
  | .passwordChange | .emailChange | .revocation =>
      closed = [] ∧ data.isActive = none ∧ data.deletedAt = none

/-- The presentation of a token was refused, and this is why. -/
def RefusalCause (a : Agent Request) (w : SystemWorld) (n : ℕ) (t : RefreshToken) : Prop :=
  (∃ b db, w.HappenedSince n ⟨b, .familyRevoked t.familyId, db⟩) ∨
  (∃ b reason cutoff db, w.HappenedSince n ⟨b, .sessionsEnded reason t.userId cutoff, db⟩) ∨
  t.revokedAt ≠ none ∧ t.consumedAt = none ∨
  (∃ now db, w.HappenedSince n ⟨a, .expiryChecked t.id t.expiresAt now, db⟩ ∧
    t.expiresAt ≤ now) ∨
  ∃ db, w.Since n db ∧ ∃ u ∈ db.users, u.id = t.userId ∧
    ∃ cutoff ∈ u.passwordChangedAt, t.createdAt < cutoff

/-! ### The guarantee -/

/-- What process `a`, holding the locks `L` in world `w`, may report and commit. -/
inductive Commit (a : Agent Request) (L : RowLock → Prop) (w : SystemWorld) :
    Event → Database → Prop
  | guarded : Commit a L w .guarded w.db
  | credentialsRead (found : Option User) (hfound : ∀ u ∈ found, u ∈ w.db.users) :
      Commit a L w (.credentialsRead found) w.db
  | inviterRead (inviterId : Uuid) : Commit a L w (.inviterRead inviterId) w.db
  | invitationRead (found : Option WorkspaceInvitation)
      (hfound : ∀ i ∈ found, i ∈ w.db.workspaceInvitations) :
      Commit a L w (.invitationRead found) w.db
  | tokenRead (found : Option RefreshToken) (hfound : ∀ t ∈ found, t ∈ w.db.refreshTokens) :
      Commit a L w (.tokenRead found) w.db
  | expiryChecked (tokenId : Uuid) (expiresAt now : ℕ) :
      Commit a L w (.expiryChecked tokenId expiresAt now) w.db
  | consumeMissed (tokenId : Uuid) (now : ℕ) (hnow : now ≤ w.now)
      (hread : ∃ l d t, (⟨a, .tokenRead (some t), d⟩ :: l) <:+ w.log ∧ t.id = tokenId ∧ t.IsLive)
      (hmissed : ∀ t ∈ w.db.refreshTokens, t.id = tokenId → t.IsLive → t.expiresAt ≤ now) :
      Commit a L w (.consumeMissed tokenId now) w.db
  | replayDetected (userId familyId : Uuid)
      (hread : ∃ l d t, (⟨a, .tokenRead (some t), d⟩ :: l) <:+ w.log ∧ t.userId = userId ∧
        t.familyId = familyId ∧ (t.consumedAt ≠ none ∨
          ∃ now s, w.HappenedSince (l.length + 1) ⟨a, .consumeMissed t.id now, s⟩)) :
      Commit a L w (.replayDetected userId familyId) w.db
  | refreshAnswered (tokenId : Uuid) (answer : Answer)
      (hsucceeded : answer = .succeeded →
        ∃ childId db, w.HappenedSince 0 ⟨a, .tokenRotated tokenId childId, db⟩)
      (hrefused : answer = .refused → ∃ l, l <:+ w.log ∧
        ∃ t ∈ (stateOf w.init l).refreshTokens, t.id = tokenId ∧ RefusalCause a w l.length t) :
      Commit a L w (.refreshAnswered tokenId answer) w.db
  | workspaceCreated (ws : Workspace) (m : WorkspaceMembership) (actorId : Uuid)
      (dto : CreateWorkspaceDto) (hreq : a.req = .createWorkspace actorId dto)
      (hlock : L (.workspace ws.id)) (happoint : Appointable L w actorId)
      (hws : Drawn a w ws.id) (hm : Drawn a w m.id) (hlive : ws.deletedAt = none)
      (hworkspace : m.workspaceId = ws.id) (huser : m.userId = actorId)
      (howner : m.IsActiveOwner) (hended : m.endedAt = none) :
      Commit a L w (.workspaceCreated ws.id) ((w.db.insertWorkspace ws).insertMembership m)
  | workspaceRemoved (workspaceId actorId : Uuid) (now : ℕ)
      (hreq : a.req = .removeWorkspace actorId workspaceId)
      (hlock : L (.workspace workspaceId)) :
      Commit a L w (.workspaceRemoved workspaceId)
        (w.db.updateWorkspaces [workspaceId] (Workspace.deleted now actorId))
  | rosterChanged (op : RosterOperation) (workspaceId actorId : Uuid)
      (target : Option WorkspaceMembership) (granted : Option SeededRoleName)
      (l : List (Entry Database Event Request)) (d db' : Database)
      (hreq : a.req.roster = some (op, actorId, workspaceId))
      (hlock : L (.workspace workspaceId)) (hguard : (⟨a, .guarded, d⟩ :: l) <:+ w.log)
      (hauthorized : Authorized w op workspaceId actorId target granted (l.length + 1) d)
      (hwrite : RosterWrite a L w workspaceId actorId (l.length + 1) op target granted db') :
      Commit a L w (.rosterChanged op workspaceId actorId target granted) db'
  | membershipUpdated (membershipId actorId : Uuid) (notes : Option (Option String)) :
      Commit a L w (.membershipUpdated membershipId)
        (w.db.updateMemberships [membershipId] (WorkspaceMembership.annotated notes actorId))
  | invitationResent (invitationId : Uuid) (tokenHash : String)
      (expiresAt : ℕ) (actorId : Uuid) (hlocked : L (.workspaceInvitation invitationId))
      (hpending : ∃ i ∈ w.db.workspaceInvitations, i.id = invitationId ∧ i.status = .pending) :
      Commit a L w (.invitationResent invitationId)
        (w.db.updateInvitations [invitationId]
          (WorkspaceInvitation.resent tokenHash expiresAt actorId))
  | invitationRevoked (invitationId : Uuid) (now : ℕ) (actorId : Uuid)
      (hlocked : L (.workspaceInvitation invitationId))
      (hpending : ∃ i ∈ w.db.workspaceInvitations, i.id = invitationId ∧ i.status = .pending) :
      Commit a L w (.invitationRevoked invitationId)
        (w.db.updateInvitations [invitationId] (WorkspaceInvitation.revoked now actorId))
  | invitationAccepted (invitation current : WorkspaceInvitation) (actorId inviterId : Uuid)
      (actorEmail token : String) (now : ℕ) (db' : Database)
      (hreq : a.req = .acceptInvitation actorId actorEmail token)
      (hlock : L (.workspace invitation.workspaceId))
      (hlocked : L (.workspaceInvitation invitation.id))
      (happoint : Appointable L w actorId)
      (hread : ∃ l d, (⟨a, .invitationRead (some invitation), d⟩ :: l) <:+ w.log ∧
        invitation ∈ d.workspaceInvitations ∧ d.LiveWorkspace invitation.workspaceId)
      (hcurrent : current ∈ w.db.workspaceInvitations) (hid : current.id = invitation.id)
      (hpending : current.status = .pending) (hunexpired : now < current.expiresAt)
      (hinviter : invitation.invitedBy = some inviterId)
      (hchecked : InviterChecked a w invitation inviterId)
      (hjoins : Joins a L w invitation.workspaceId actorId invitation.role
        (w.db.updateInvitations [invitation.id] (WorkspaceInvitation.accepted now actorId))
          db') :
      Commit a L w (.invitationAccepted invitation actorId) db'
  | userUpdated (userId : Uuid) (existing : User) (dto : UpdateUserDto) (actorId : Option Uuid)
      (hreq : a.req = .updateUser actorId userId dto) (hlock : L (.user userId))
      (hread : ∃ db, w.Since 0 db ∧ existing ∈ db.users ∧ existing.id = userId)
      (hbranch : ¬ (dto.isActive = some false ∧ existing.isActive = true)) :
      Commit a L w (.userUpdated userId)
        (w.db.updateUser userId (UsersService.updateData existing dto actorId).rewrite)
  | passwordResetMinted (userId : Uuid) (data : UserUpdateInput) (hlock : L (.user userId))
      (hactive : data.isActive = none) (hdeleted : data.deletedAt = none) :
      Commit a L w (.passwordResetMinted userId) (w.db.updateUser userId data.rewrite)
  | sessionsEnded (reason : SessionEnd) (userId : Uuid) (cutoff : ℕ) (data : UserUpdateInput)
      (actorId : Option Uuid) (closed revoked : List Uuid) (closedAt revokedAt : ℕ)
      (hends : EndsSessions L w userId cutoff revoked)
      (hreason : EndReason a L w userId data closed reason) :
      Commit a L w (.sessionsEnded reason userId cutoff)
        (((w.db.updateWorkspaces closed (Workspace.deleted closedAt userId)).updateUser
          userId (data.endSessions actorId cutoff)).updateTokens
            revoked (RefreshToken.revoked revokedAt))
  | sessionStarted (t : RefreshToken) (owner : User) (hlock : L (.user t.userId))
      (howner : owner ∈ w.db.users) (hid : owner.id = t.userId) (husable : owner.IsUsable)
      (hlive : t.IsLive) (hdrawn : Drawn a w t.id) (hfamily : Drawn a w t.familyId)
      (hjudged : ∀ identifier password, a.req = .login identifier password →
        ∃ l d v, (⟨a, .credentialsRead (some v), d⟩ :: l) <:+ w.log ∧ v.id = t.userId ∧
          v.passwordChangedAt = owner.passwordChangedAt) :
      Commit a L w (.sessionStarted t.userId t.familyId t.id) (w.db.insertToken t)
  | tokenRotated (t child : RefreshToken) (owner : User) (now : ℕ)
      (hlock : L (.user t.userId)) (hrow : L (.refreshToken t.id))
      (hmem : t ∈ w.db.refreshTokens) (hlive : t.IsLive)
      (howner : owner ∈ w.db.users) (hid : owner.id = t.userId) (husable : owner.IsUsable)
      (hcutoff : ∀ cutoff ∈ owner.passwordChangedAt, cutoff ≤ t.createdAt)
      (hfamily : child.familyId = t.familyId) (huser : child.userId = t.userId)
      (hchild : child.IsLive) (hdrawn : Drawn a w child.id) :
      Commit a L w (.tokenRotated t.id child.id)
        ((w.db.updateTokens [t.id] (RefreshToken.consumed now)).insertToken child)
  | familyRevoked (familyId : Uuid) (revoked : List Uuid) (now : ℕ)
      (hlocked : ∀ id ∈ revoked, L (.refreshToken id))
      (hrevoked : (∀ t ∈ w.db.refreshTokens, t.familyId ≠ familyId) ∨
        ∃ db, w.Since 0 db ∧ ∃ any ∈ db.refreshTokens, any.familyId = familyId ∧
          ∀ t ∈ w.db.refreshTokens, t.familyId = familyId → t.userId = any.userId →
            t.revokedAt = none → t.id ∈ revoked)
      (hknown : ∃ db, w.Since 0 db ∧ db.Mentions familyId) :
      Commit a L w (.familyRevoked familyId)
        (w.db.updateTokens revoked (RefreshToken.revoked now))
  | tokensPurged (ids : List Uuid) (hlocked : ∀ id ∈ ids, L (.refreshToken id)) :
      Commit a L w (.tokensPurged ids) (w.db.deleteTokens ids)
  | platformRoleAssigned (actorId userId : Uuid) (role : SeededRoleName)
      (hreq : a.req = .assignPlatformRole actorId userId (some role)) :
      Commit a L w (.platformRoleAssigned userId role) (w.db.insertUserRole ⟨userId, role⟩)
  | platformRoleRevoked (actorId userId : Uuid) (role : SeededRoleName)
      (hreq : a.req = .revokePlatformRole actorId userId (some role)) :
      Commit a L w (.platformRoleRevoked userId role) (w.db.deleteUserRole ⟨userId, role⟩)

/-- The guarantee of the system. -/
def guarantee : Guarantee Database RowLock Event Uuid Request := Commit

end NestApi
