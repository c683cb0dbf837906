import NestApi.Workspaces.Memberships

/-!
# Workspace invitations

An invitation is a role assignment, deferred: creating one passes the guard and the
assignment policy, and accepting one asks the policy again, about the inviter as they are
then.
-/

namespace NestApi.WorkspaceInvitations

open Authorization Txn.Program WorkspaceOwnershipPolicy WorkspaceRoleAssignmentPolicy
  WorkspaceMemberships

/-- The columns of an invitation that a rule can be conditioned on. -/
def invitationRecord (i : WorkspaceInvitation) : Record :=
  (Record.of "id" i.id).with "workspaceId" i.workspaceId

/-- One invitation of one workspace. -/
def invitationWhere (workspaceId invitationId : Uuid) : Where WorkspaceInvitation :=
  .mk
    [fun i => some (i.id = invitationId), fun i => some (i.workspaceId = workspaceId)]
    none [] []

/-- The invitation the caller may read, else 404. -/
def findVisibleInvitation (workspaceId invitationId : Uuid) (ability : Ability) :
    Handler WorkspaceInvitation := do
  let filter ← orRefuse (buildWhereOrEmpty (accessibleByRules invitationRecord)
    ability .read .workspaceInvitation (invitationWhere workspaceId invitationId))
  let invitation ← select fun db =>
    db.workspaceInvitations.rows.find? fun i => filter.selects i
  orThrow invitation (.api (Errors.resourceNotFound "Workspace invitation"))

/-- When an invitation made now lapses. -/
def expiryFrom (env : Env) (now : ℕ) : ℕ := now + env.invitationExpiresInDays * dayMs

/-- `INSERT`: one pending invitation per address and workspace. -/
def createPending (i : WorkspaceInvitation) : Handler WorkspaceInvitation := do
  let taken ← select fun db => db.workspaceInvitations.rows.any fun other =>
    other.workspaceId = i.workspaceId && other.email = i.email && other.status = .pending
  ensure (taken = false) (.api (Errors.resourceConflict
    "That address already has a pending invitation to this workspace"))
  modify fun db => db.insertInvitation i
  pure i

/-- The writing half of `create`: retire what has lapsed, refuse whoever is a member. -/
def createTransaction (workspaceId actorId : Uuid) (email : String)
    (invitedUserId : Option Uuid) (role : SeededRoleName) (tokenHash : String)
    (expiresAt : ℕ) : Handler WorkspaceInvitation := do
  lockWorkspaceRow workspaceId
  let now ← now
  let _ ← updateManyInvitations
    (fun i => i.workspaceId = workspaceId && i.email = email && i.status = .pending &&
      i.expiresAt ≤ now) (WorkspaceInvitation.expired actorId)
  let membership ← select fun db =>
    invitedUserId.bind fun userId => db.membershipOf? workspaceId userId
  ensure (∀ m ∈ membership, m.status = .left) (.api
    (Errors.resourceConflict "That person already has a membership in this workspace"))
  let id ← freshId
  createPending
    { id, workspaceId, email, invitedUserId, role, tokenHash, status := .pending,
      invitedBy := some actorId, expiresAt, acceptedAt := none, acceptedBy := none,
      revokedAt := none, revokedBy := none, createdBy := some actorId,
      updatedBy := some actorId }

/-- Invite an email address to a workspace. -/
def create (env : Env) (workspaceId actorId : Uuid) (dto : CreateWorkspaceInvitationDto)
    (ability : Ability) : Handler WorkspaceInvitation := do
  let role ← loadAssignableRole dto.role
  let _ ← assertMayAssign workspaceId actorId role ability none
  let workspace ← select fun db => db.scopedWorkspace? workspaceId
  let _ ← orThrow workspace (.api (Errors.resourceNotFound "Workspace"))
  let existingUser ← select fun db =>
    db.users.rows.find? fun u => u.email = dto.email && u.deletedAt = none
  let token ← freshId
  let now ← now
  transaction
    (createTransaction workspaceId actorId dto.email (existingUser.map User.id) role
      (env.hashOpaqueToken token) (expiryFrom env now))
    fun _ => .rosterChanged .createInvitation workspaceId actorId none (some role)

/-- Withdraw a pending invitation. Conditional: revoking and accepting race. -/
def revoke (workspaceId invitationId actorId : Uuid) (ability : Ability) : Handler Unit := do
  let _ ← findVisibleInvitation workspaceId invitationId ability
  let now ← now
  transaction (do
      let revoked ← updateManyInvitations
        (fun i => i.id = invitationId && i.status = .pending)
        (WorkspaceInvitation.revoked now actorId)
      ensure (revoked.length = 1) (.api (Errors.resourceConflict
        "That invitation is no longer pending and cannot be revoked")))
    fun _ => .invitationRevoked invitationId

/-- Send a pending invitation again on a fresh token. Without send budget the invitation
stays as it is. -/
def resend (env : Env) (workspaceId invitationId actorId : Uuid) (hasBudget : Bool)
    (ability : Ability) : Handler Unit := do
  let existing ← findVisibleInvitation workspaceId invitationId ability
  let _ ← assertMayAssign workspaceId actorId existing.role ability none
  let workspace ← select fun db => db.scopedWorkspace? workspaceId
  let _ ← orThrow workspace (.api (Errors.resourceNotFound "Workspace"))
  onlyIf (hasBudget = true) do
    let token ← freshId
    let now ← now
    transaction (do
        let rotated ← updateManyInvitations
          (fun i => i.id = invitationId && i.status = .pending)
          (WorkspaceInvitation.resent (env.hashOpaqueToken token) (expiryFrom env now) actorId)
        ensure (rotated.length = 1) (.api (Errors.resourceConflict
          "That invitation is no longer pending and cannot be resent")))
      fun _ => .invitationResent invitationId

/-! ### Acceptance -/

/-- The caller is the invitee: by account where the invitation recorded one, and by
verified address where it could not. -/
def assertIsInvitee (invitation : WorkspaceInvitation) (actorId : Uuid)
    (actorEmail : String) : Handler Unit :=
  match invitation.invitedUserId with
  | some invitedUserId =>
    ensure (invitedUserId = actorId) (.api Errors.invitationInvalid)
  | none => do
    ensure (invitation.email = toLowerCase actorEmail) (.api Errors.invitationInvalid)
    let caller ← select fun db => db.scopedUser? actorId
    ensure ((caller.bind User.emailVerifiedAt).isSome = true) (.api Errors.invitationInvalid)

/-- A refusal of the policy is reported as an invalid invitation. -/
def asInvitationInvalid : Failure → Failure
  | .api e =>
    if e.exception = .forbidden ∨ e.exception = .notFound then .api Errors.invitationInvalid
    else .api e
  | e => e

/-- The inviter, as they are at acceptance, may still hand out the invited role. The
permission to create invitations is not asked for again. -/
def assertInviterMayStillAssign (invitation : WorkspaceInvitation) : Handler Unit := do
  let inviterId ← orThrow invitation.invitedBy (.api Errors.invitationInvalid)
  let found ← selectObserved (fun _ => .inviterRead inviterId) fun db =>
    (db.scopedUser? inviterId).filter fun u => u.isActive
  let inviter ← orThrow found (.api Errors.invitationInvalid)
  let ability ← createAbilityForUser inviter.id
  catchError
    (do
      let role ← loadAssignableRole (some invitation.role)
      let _ ← assertMayAssign invitation.workspaceId inviter.id role ability none
      pure ())
    fun e => .fail (asInvitationInvalid e)

/-- The writing half of `accept`: consume the invitation, then write the membership. -/
def acceptTransaction (invitation : WorkspaceInvitation) (actorId : Uuid) (now : ℕ) :
    Handler WorkspaceMembership := do
  assertUserMayHoldActiveMembership actorId
  lockWorkspaceRow invitation.workspaceId
  assertInviterMayStillAssign invitation
  let consumed ← updateManyInvitations
    (fun i => i.id = invitation.id && i.status = .pending && decide (now < i.expiresAt))
    (WorkspaceInvitation.accepted now actorId)
  ensure (consumed.length = 1) .invitationAlreadyConsumed
  let previous ← select fun db => db.membershipOf? invitation.workspaceId actorId
  match previous with
  | some previous => do
    ensure (previous.status = .left) (.api
      (Errors.resourceConflict "You already have a membership in this workspace"))
    updateMembership previous (WorkspaceMembership.rejoined invitation.role now none actorId)
  | none => do
    let id ← freshId
    createMembership
      { id, workspaceId := invitation.workspaceId, userId := actorId, role := invitation.role,
        status := .active, joinedAt := now, endedAt := none,
        invitedBy := invitation.invitedBy, notes := none, createdBy := some actorId,
        updatedBy := some actorId }

/-- The sentinel of a lost race is answered as an invalid invitation. -/
def consumedAsInvalid : Failure → Failure
  | .invitationAlreadyConsumed => .api Errors.invitationInvalid
  | e => e

/-- The invitation of a presented token. -/
def findByToken (env : Env) (token : String) (db : Database) : Option WorkspaceInvitation :=
  db.workspaceInvitations.rows.find? fun i => i.tokenHash = env.hashOpaqueToken token

/-- Redeem an invitation. -/
def accept (env : Env) (token : String) (actorId : Uuid) (actorEmail : String) :
    Handler WorkspaceMembership := do
  let found ← selectObserved (fun db => .invitationRead (findByToken env token db)) fun db =>
    (findByToken env token db).map fun i => (i, db.isLiveWorkspace i.workspaceId)
  let (invitation, isLive) ← orThrow found (.api Errors.invitationInvalid)
  ensure (invitation.status = .pending ∨ invitation.status = .expired)
    (.api Errors.invitationInvalid)
  ensure (isLive = true) (.api Errors.invitationInvalid)
  assertIsInvitee invitation actorId actorEmail
  let checkedAt ← now
  ensure (invitation.status ≠ .expired ∧ checkedAt < invitation.expiresAt)
    (.api Errors.invitationExpired)
  let now ← now
  catchError
    (transaction (acceptTransaction invitation actorId now) fun _ =>
      .invitationAccepted invitation actorId)
    fun e => .fail (consumedAsInvalid e)

end NestApi.WorkspaceInvitations
