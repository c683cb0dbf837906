import Mathlib.Algebra.BigOperators.Group.List.Lemmas
import Mathlib.Algebra.GroupWithZero.Nat
import NestApi.Catalog.Tables
import NestApi.Common.Text

/-!
# The boot-time check of the assignments

The application refuses to start on assignments that no operation writes: a role outside its
scope, or a status that is none. The check reads the two columns of each assignment as texts and
ids, since rows written by hand may hold anything. A report counts rows and names roles and
statuses, never users.
-/

namespace NestApi

/-! ### Rows -/

/-- The columns of a membership or of an invitation that the check reads. -/
structure TenantAssignment where
  roleId : ℕ
  status : String
deriving DecidableEq

/-- The tables that the check reads. Of a row of `user_roles` it reads the role. -/
structure AssignmentTables where
  roles : List RoleRow
  userRoles : List ℕ
  workspaceMemberships : List TenantAssignment
  workspaceInvitations : List TenantAssignment
deriving DecidableEq

inductive DefectKind
  | workspaceRoleAssignedPlatformWide
  | platformRoleInMembership
  | platformRoleInInvitation
  | unknownMembershipStatus
  | unknownInvitationStatus
deriving DecidableEq

/-- One class of corruption. -/
structure AuthorizationDataDefect where
  kind : DefectKind
  count : ℕ
  offenders : List String
deriving DecidableEq

/-! ### The check -/

/-- `Object.values(WorkspaceMembershipStatus)`. -/
def membershipStatuses : List String :=
  [WorkspaceMembershipStatus.active, .suspended, .left].map WorkspaceMembershipStatus.value

/-- The stored text of an invitation status. -/
def WorkspaceInvitationStatus.value : WorkspaceInvitationStatus → String
  | pending => "pending"
  | accepted => "accepted"
  | revoked => "revoked"
  | expired => "expired"

/-- `Object.values(WorkspaceInvitationStatus)`. -/
def invitationStatuses : List String :=
  [WorkspaceInvitationStatus.pending, .accepted, .revoked, .expired].map
    WorkspaceInvitationStatus.value

/-- `groupBy` with a count: every value once, with the number of its rows. -/
def groupBy {α : Type} [DecidableEq α] (values : List α) : List (α × ℕ) :=
  values.dedup.map fun value => (value, values.count value)

/-- `sort` without a comparison: by UTF-16 code units. -/
def sortTexts (texts : List String) : List String :=
  texts.mergeSort fun a b => decide (text a ≤ text b)

/-- The defect that some groups of rows make up, and none without groups. -/
def collectDefect {α : Type} (name : α → String) (kind : DefectKind) (groups : List (α × ℕ)) :
    List AuthorizationDataDefect :=
  if groups.length = 0 then []
  else [⟨kind, (groups.map Prod.snd).sum, sortTexts (groups.map fun group => name group.1)⟩]

namespace AssignmentTables

variable (t : AssignmentTables)

/-- `where: { role: { scope } }`, on a column of role ids. -/
def withScope (scope : RoleScope) (roleIds : List ℕ) : List ℕ :=
  roleIds.filter fun roleId => t.roles.any fun r => r.id = roleId && r.scope = scope.value

/-- The name of a role, or its id where there is no such row. -/
def nameById (roleId : ℕ) : String :=
  ((t.roles.find? fun r => r.id = roleId).map RoleRow.name).getD (toString roleId)

/-- `collectRoleDefect`: a group is named after its role. -/
def collectRoleDefect (kind : DefectKind) (groups : List (ℕ × ℕ)) :
    List AuthorizationDataDefect :=
  collectDefect t.nameById kind groups

/-- `collectStatusDefect`: a group is named after its status. -/
def collectStatusDefect (kind : DefectKind) (groups : List (String × ℕ)) :
    List AuthorizationDataDefect :=
  collectDefect id kind groups

/-- `AuthorizationDataIntegrityService.findDefects`: all of them, not the first. -/
def findDefects : List AuthorizationDataDefect :=
  t.collectRoleDefect .workspaceRoleAssignedPlatformWide
      (groupBy (t.withScope .workspace t.userRoles)) ++
    t.collectRoleDefect .platformRoleInMembership
      (groupBy (t.withScope .platform (t.workspaceMemberships.map TenantAssignment.roleId))) ++
    t.collectRoleDefect .platformRoleInInvitation
      (groupBy (t.withScope .platform (t.workspaceInvitations.map TenantAssignment.roleId))) ++
    collectStatusDefect .unknownMembershipStatus
      (groupBy ((t.workspaceMemberships.map TenantAssignment.status).filter
        fun status => status ∉ membershipStatuses)) ++
    collectStatusDefect .unknownInvitationStatus
      (groupBy ((t.workspaceInvitations.map TenantAssignment.status).filter
        fun status => status ∉ invitationStatuses))

end AssignmentTables

/-- `DEFECT_DESCRIPTIONS`. -/
def DefectKind.description : DefectKind → String
  | workspaceRoleAssignedPlatformWide =>
    "WORKSPACE-scoped role(s) assigned platform-wide in `user_roles`"
  | platformRoleInMembership => "PLATFORM-scoped role(s) attached to a workspace membership"
  | platformRoleInInvitation => "PLATFORM-scoped role(s) attached to a workspace invitation"
  | unknownMembershipStatus =>
    "workspace membership(s) carrying a status outside `WorkspaceMembershipStatus`"
  | unknownInvitationStatus =>
    "workspace invitation(s) carrying a status outside `WorkspaceInvitationStatus`"

def describeDefect (defect : AuthorizationDataDefect) : String :=
  s!"{defect.count} {defect.kind.description}: " ++ ", ".intercalate defect.offenders

/-- `assertStoredAssignmentsAreCoherent`. -/
def assertStoredAssignmentsAreCoherent (t : AssignmentTables) : Except String Unit :=
  if t.findDefects.length > 0 then
    .error ("Stored authorization state is not coherent. The application will not " ++
      "start; these rows grant nothing at runtime (AbilityFactory fails " ++
      "closed on them) but they should not exist.\n  - " ++
      "\n  - ".intercalate (t.findDefects.map describeDefect))
  else .ok ()

/-! ### What it reports -/

theorem mem_sortTexts {texts : List String} {s : String} : s ∈ sortTexts texts ↔ s ∈ texts :=
  (List.mergeSort_perm texts _).mem_iff

/-- A defect reports its class: the number of the rows, and what they offend with. -/
structure AuthorizationDataDefect.Reports (defect : AuthorizationDataDefect)
    (texts : List String) : Prop where
  count : defect.count = texts.length
  offenders : ∀ s, s ∈ defect.offenders ↔ s ∈ texts

section Groups

variable {α : Type} [DecidableEq α] {values : List α}

/-- The counts of the groups add up to the rows. -/
theorem groupBy_counts : ((groupBy values).map Prod.snd).sum = values.length := by
  simp only [groupBy, List.map_map, Function.comp_def]
  exact List.sum_map_count_dedup_eq_length values

theorem groupBy_length : (groupBy values).length = 0 ↔ values = [] := by
  simp [groupBy]

/-- What is collected from the groups of some rows: nothing without rows, else one defect. -/
theorem collectDefect_groupBy (values : List α) (name : α → String) (kind : DefectKind) :
    (values = [] ∧ collectDefect name kind (groupBy values) = []) ∨
      values ≠ [] ∧ ∃ d, collectDefect name kind (groupBy values) = [d] ∧ d.kind = kind ∧
        d.Reports (values.map name) := by
  unfold collectDefect
  by_cases hempty : values = []
  · exact .inl ⟨hempty, if_pos (groupBy_length.mpr hempty)⟩
  · refine .inr ⟨hempty, _, if_neg fun h => hempty (groupBy_length.mp h), rfl, ?_, fun s => ?_⟩
    · simpa using groupBy_counts
    · rw [mem_sortTexts]
      simp [groupBy]

end Groups

namespace AssignmentTables

variable (t : AssignmentTables)

/-- The role has a row with this scope. -/
def HasScope (roleId : ℕ) (scope : RoleScope) : Prop :=
  ∃ r ∈ t.roles, r.id = roleId ∧ r.scope = scope.value

/-- Every assignment is within the scope of its role, and every status is one. -/
structure Coherent : Prop where
  userRoles : ∀ roleId ∈ t.userRoles, ¬ t.HasScope roleId .workspace
  memberships : ∀ m ∈ t.workspaceMemberships, ¬ t.HasScope m.roleId .platform
  invitations : ∀ i ∈ t.workspaceInvitations, ¬ t.HasScope i.roleId .platform
  membershipStatuses : ∀ m ∈ t.workspaceMemberships, m.status ∈ membershipStatuses
  invitationStatuses : ∀ i ∈ t.workspaceInvitations, i.status ∈ invitationStatuses

/-- What the rows of a class offend with, one entry a row. -/
def affected : DefectKind → List String
  | .workspaceRoleAssignedPlatformWide => (t.withScope .workspace t.userRoles).map t.nameById
  | .platformRoleInMembership =>
    (t.withScope .platform (t.workspaceMemberships.map TenantAssignment.roleId)).map t.nameById
  | .platformRoleInInvitation =>
    (t.withScope .platform (t.workspaceInvitations.map TenantAssignment.roleId)).map t.nameById
  | .unknownMembershipStatus =>
    (t.workspaceMemberships.map TenantAssignment.status).filter
      fun status => status ∉ membershipStatuses
  | .unknownInvitationStatus =>
    (t.workspaceInvitations.map TenantAssignment.status).filter
      fun status => status ∉ invitationStatuses

variable {t}

theorem mem_withScope {scope : RoleScope} {roleIds : List ℕ} {roleId : ℕ} :
    roleId ∈ t.withScope scope roleIds ↔ roleId ∈ roleIds ∧ t.HasScope roleId scope := by
  simp [withScope, HasScope]

theorem withScope_eq_nil {scope : RoleScope} {roleIds : List ℕ} :
    t.withScope scope roleIds = [] ↔ ∀ roleId ∈ roleIds, ¬ t.HasScope roleId scope := by
  simp only [List.eq_nil_iff_forall_not_mem, mem_withScope, not_and]

/-- The tables are coherent when no class has a row. -/
theorem coherent_iff : t.Coherent ↔ ∀ kind, t.affected kind = [] := by
  constructor
  · intro h kind
    cases kind with
    | workspaceRoleAssignedPlatformWide =>
      exact List.map_eq_nil_iff.mpr (withScope_eq_nil.mpr h.userRoles)
    | platformRoleInMembership =>
      exact List.map_eq_nil_iff.mpr (withScope_eq_nil.mpr (by simpa using h.memberships))
    | platformRoleInInvitation =>
      exact List.map_eq_nil_iff.mpr (withScope_eq_nil.mpr (by simpa using h.invitations))
    | unknownMembershipStatus => simpa [affected] using h.membershipStatuses
    | unknownInvitationStatus => simpa [affected] using h.invitationStatuses
  · intro h
    refine ⟨?_, ?_, ?_, ?_, ?_⟩
    · exact withScope_eq_nil.mp (List.map_eq_nil_iff.mp (h .workspaceRoleAssignedPlatformWide))
    · simpa using withScope_eq_nil.mp (List.map_eq_nil_iff.mp (h .platformRoleInMembership))
    · simpa using withScope_eq_nil.mp (List.map_eq_nil_iff.mp (h .platformRoleInInvitation))
    · simpa [affected] using h .unknownMembershipStatus
    · simpa [affected] using h .unknownInvitationStatus

/-- One class of a report: absent without rows, and else one defect that reports them. -/
def ClassReported (kind : DefectKind) (texts : List String)
    (defects : List AuthorizationDataDefect) : Prop :=
  (texts = [] ∧ defects = []) ∨
    texts ≠ [] ∧ ∃ d, defects = [d] ∧ d.kind = kind ∧ d.Reports texts

theorem classReported_role (t : AssignmentTables) (kind : DefectKind) (roleIds : List ℕ) :
    ClassReported kind (roleIds.map t.nameById) (t.collectRoleDefect kind (groupBy roleIds)) := by
  rcases collectDefect_groupBy roleIds t.nameById kind with ⟨hempty, hnone⟩ | ⟨hne, hsome⟩
  · exact .inl ⟨by simp [hempty], hnone⟩
  · exact .inr ⟨by simpa using hne, hsome⟩

theorem classReported_status (kind : DefectKind) (statuses : List String) :
    ClassReported kind statuses (collectStatusDefect kind (groupBy statuses)) := by
  rcases collectDefect_groupBy statuses id kind with ⟨hempty, hnone⟩ | ⟨hne, hsome⟩
  · exact .inl ⟨hempty, hnone⟩
  · exact .inr ⟨hne, by simpa [collectStatusDefect] using hsome⟩

/-- The part of a report that belongs to one class. -/
theorem ClassReported.filter {kind : DefectKind} {texts : List String}
    {defects : List AuthorizationDataDefect} (h : ClassReported kind texts defects)
    (other : DefectKind) : defects.filter (fun d => d.kind = other) =
      if other = kind then defects else [] := by
  rcases h with ⟨-, rfl⟩ | ⟨-, d, rfl, rfl, -⟩
  · simp
  · by_cases hkind : other = d.kind
    · simp [hkind]
    · simp [hkind, Ne.symm hkind]

/-- Every class is reported on its own. -/
theorem findDefects_class (kind : DefectKind) :
    ClassReported kind (t.affected kind) (t.findDefects.filter fun d => d.kind = kind) := by
  have h₁ := classReported_role t .workspaceRoleAssignedPlatformWide
    (t.withScope .workspace t.userRoles)
  have h₂ := classReported_role t .platformRoleInMembership
    (t.withScope .platform (t.workspaceMemberships.map TenantAssignment.roleId))
  have h₃ := classReported_role t .platformRoleInInvitation
    (t.withScope .platform (t.workspaceInvitations.map TenantAssignment.roleId))
  have h₄ := classReported_status .unknownMembershipStatus
    ((t.workspaceMemberships.map TenantAssignment.status).filter
      fun status => status ∉ membershipStatuses)
  have h₅ := classReported_status .unknownInvitationStatus
    ((t.workspaceInvitations.map TenantAssignment.status).filter
      fun status => status ∉ invitationStatuses)
  rw [findDefects]
  simp only [List.filter_append, h₁.filter, h₂.filter, h₃.filter, h₄.filter, h₅.filter]
  cases kind with
  | workspaceRoleAssignedPlatformWide => simpa [affected] using h₁
  | platformRoleInMembership => simpa [affected] using h₂
  | platformRoleInInvitation => simpa [affected] using h₃
  | unknownMembershipStatus => simpa [affected] using h₄
  | unknownInvitationStatus => simpa [affected] using h₅

theorem findDefects_eq_nil : t.findDefects = [] ↔ t.Coherent := by
  rw [coherent_iff]
  constructor
  · intro h kind
    rcases findDefects_class (t := t) kind with ⟨hnone, -⟩ | ⟨-, d, hd, -⟩
    · exact hnone
    · simp [h] at hd
  · intro h
    refine List.eq_nil_iff_forall_not_mem.mpr fun d hd => ?_
    rcases findDefects_class (t := t) d.kind with ⟨-, hnone⟩ | ⟨hsome, -⟩
    · have hmem : d ∈ t.findDefects.filter fun d' => d'.kind = d.kind :=
        List.mem_filter.mpr ⟨hd, by simp⟩
      simp [hnone] at hmem
    · exact hsome (h d.kind)

end AssignmentTables

end NestApi
