import NestApi.Authorization.PermissionsGuard

/-!
# Administrative routes need administrative grants

The guard judges an administrative route before any record is loaded, with a stub that carries the
caller's own id. A rule on the caller's own rows would match that stub, so the guard also asks for
a rule without that condition. Such a rule comes from a platform permission on every row or from
the permission of a membership.
-/

namespace NestApi

open Authorization

namespace Authorization

/-- A permission on the rows that its holder owns. -/
def PermissionGrant.IsOwn (p : PermissionGrant) : Prop :=
  p.scope = .string RoleScope.platform.value ∧ p.ownership = .string PermissionOwnership.own.value

/-- The grants hold nothing but permissions on the user's own rows. -/
def AuthorizationGrants.OwnOnly (g : AuthorizationGrants) : Prop :=
  (∀ p ∈ g.platformPermissions, p.IsOwn) ∧
    ∀ m ∈ g.workspaceMemberships, ∀ p ∈ m.permissions, p.IsOwn

/-- The grants hold a permission that reaches beyond the user's own rows: one on every row of the
platform, or one of an active membership. -/
def AuthorizationGrants.Administers (g : AuthorizationGrants) (action subject : String) : Prop :=
  (∃ p ∈ g.platformPermissions, p.scope = .string RoleScope.platform.value ∧
    p.ownership = .string PermissionOwnership.any.value ∧ p.covers action subject) ∨
  ∃ m ∈ g.workspaceMemberships, m.status = .string WorkspaceMembershipStatus.active.value ∧
    ∃ p ∈ m.permissions, p.scope = .string RoleScope.workspace.value ∧ p.covers action subject

variable {userId action subject ownerKey : String} {grants : AuthorizationGrants}
  {ability : Ability} {record : Record}

theorem AuthorizationGrants.OwnOnly.not_administers (h : grants.OwnOnly) :
    ¬ grants.Administers action subject := by
  rintro (⟨p, hp, -, hany, -⟩ | ⟨m, hm, -, p, hp, hscope, -⟩)
  · have hown := (h.1 p hp).2
    simp [hany, PermissionOwnership.value] at hown
  · have hplatform := (h.2 m hm p hp).1
    simp [hscope, RoleScope.value] at hplatform

/-! ### Keys -/

theorem resolveOwnerKey_eq (h : subjectOwnerKey subject = some ownerKey) :
    resolveOwnerKey subject = .ok ownerKey := by
  simp [resolveOwnerKey, h]

/-- A subject that inherits no key has the owner column it resolves to. -/
theorem of_resolveOwnerKey {key : String} (h : resolveOwnerKey subject = .ok key)
    (hkeys : inheritedKey subject = none) : subjectOwnerKey subject = some key := by
  unfold resolveOwnerKey at h
  rw [hkeys, Option.or_none] at h
  split at h
  · next hsubject => rw [hsubject, Except.ok.inj h]
  · cases h

theorem of_resolveTenantKey {key : String} (h : resolveTenantKey subject = .ok key)
    (hkeys : inheritedKey subject = none) : subjectTenantKey subject = some key := by
  unfold resolveTenantKey at h
  rw [hkeys, Option.or_none] at h
  split at h
  · next hsubject => rw [hsubject, Except.ok.inj h]
  · cases h

/-- A permission on own rows speaks about one subject. -/
theorem resolveOwnerKey_of_covers {p : PermissionGrant} {key : String}
    (hcovers : p.covers action subject) (hkey : resolveOwnerKey p.subject = .ok key) :
    p.subject = subject := by
  simp only [PermissionGrant.covers, covers, Bool.and_eq_true, Bool.or_eq_true,
    decide_eq_true_eq] at hcovers
  rcases hcovers.2 with (heq | hall) | hempty
  · exact heq
  · have hnone : (resolveOwnerKey "all").toOption = none := by decide
    simp [← hall, hkey, Except.toOption] at hnone
  · have hnone : (resolveOwnerKey "").toOption = none := by decide
    simp [← hempty, hkey, Except.toOption] at hnone

/-- The intrinsic permissions on every row are about subjects that nobody owns. -/
theorem intrinsic_not_administers {p : PermissionDefinition}
    (hp : p ∈ authenticatedUserPermissions) (hany : p.ownership = .any)
    (howner : subjectOwnerKey subject = some ownerKey) :
    ¬ p.toPermissionGrant.covers action subject := by
  intro hcovers
  have hshared : ∀ p ∈ authenticatedUserPermissions, p.ownership = .any →
      subjectOwnerKey p.subject.value = none ∧ p.subject.value ≠ "all" ∧
        p.subject.value ≠ "" := by
    decide
  obtain ⟨hnone, hall, hempty⟩ := hshared p hp hany
  simp only [PermissionGrant.covers, covers, PermissionDefinition.toPermissionGrant,
    Bool.and_eq_true, Bool.or_eq_true, decide_eq_true_eq, hall, hempty, or_false] at hcovers
  rw [of_decide_eq_true hcovers.2, howner] at hnone
  cases hnone

/-! ### Rules -/

/-- A rule that is not conditioned on the owner allows its action on a record without one. -/
theorem exists_unowned_record {rule : Rule} (hmem : rule ∈ ability)
    (hrelevant : rule.relevant action subject = true)
    (hfree : ∀ condition ∈ rule.condition, condition.1 ≠ ownerKey) :
    ∃ record, ability.can action subject record = true ∧ record ownerKey = .undefined := by
  cases hcondition : rule.condition with
  | none =>
    refine ⟨fun _ => .undefined, List.any_eq_true.mpr ⟨rule, hmem, ?_⟩, rfl⟩
    simp [hrelevant, Rule.matchesConditions, hcondition]
  | some condition =>
    have hne := hfree condition hcondition
    refine ⟨Record.of condition.1 condition.2, List.any_eq_true.mpr ⟨rule, hmem, ?_⟩, ?_⟩
    · simp [hrelevant, Rule.matchesConditions, hcondition, Record.of]
    · simp [Record.of, Ne.symm hne]

/-- What is allowed on a record without an owner is granted beyond the user's own rows. -/
theorem administers_of_can (hability : createForUser userId grants = .ok ability)
    (howner : subjectOwnerKey subject = some ownerKey)
    (hcan : ability.can action subject record = true) (hrecord : record ownerKey = .undefined) :
    grants.Administers action subject := by
  rcases (allows_createForUser hability).mp hcan with
    ⟨p, hp, hscope, hcovers, hrows⟩ | ⟨m, hm, hactive, w, -, -, p, hp, hscope, hcovers, -⟩
  · have hany : p.ownership = .string PermissionOwnership.any.value := by
      rcases hrows with hany | ⟨-, key, hkey, hvalue⟩
      · exact hany
      · rw [resolveOwnerKey_of_covers hcovers hkey, resolveOwnerKey_eq howner] at hkey
        obtain rfl := Except.ok.inj hkey
        rw [hrecord] at hvalue
        cases hvalue
    rcases List.mem_append.mp hp with hintrinsic | hplatform
    · obtain ⟨q, hq, rfl⟩ := List.mem_map.mp hintrinsic
      have hq' : q.ownership = .any := by
        cases hown : q.ownership with
        | any => rfl
        | own => simp [PermissionDefinition.toPermissionGrant, hown,
            PermissionOwnership.value] at hany
      exact absurd hcovers (intrinsic_not_administers hq hq' howner)
    · exact .inl ⟨p, hplatform, hscope, hany, hcovers⟩
  · exact .inr ⟨m, hm, hactive, p, hp, hscope, hcovers⟩

/-- What is allowed on a stub is allowed on every record that agrees with it on the columns of
the owner and of the tenant. -/
theorem can_of_can_stub (hability : createForUser userId grants = .ok ability) {stub : Record}
    (hcan : ability.can action subject stub = true)
    (howner : ∀ key ∈ subjectOwnerKey subject, record key = .string userId)
    (htenant : ∀ key ∈ subjectTenantKey subject, record key = stub key)
    (hkeys : inheritedKey subject = none) : ability.can action subject record = true := by
  refine (allows_createForUser hability).mpr ?_
  rcases (allows_createForUser hability).mp hcan with
    ⟨p, hp, hscope, hcovers, hrows⟩ | ⟨m, hm, hactive, w, hw, hne, p, hp, hscope, hcovers, key,
      hkey, hvalue⟩
  · refine .inl ⟨p, hp, hscope, hcovers, hrows.imp_right ?_⟩
    rintro ⟨hown, key, hkey, -⟩
    refine ⟨hown, key, hkey, howner key ?_⟩
    rw [resolveOwnerKey_of_covers hcovers hkey] at hkey
    exact of_resolveOwnerKey hkey hkeys
  · refine .inr ⟨m, hm, hactive, w, hw, hne, p, hp, hscope, hcovers, key, hkey, ?_⟩
    rw [← hvalue]
    refine htenant key ?_
    rw [resolveTenantKey_of_covers hcovers hkey] at hkey
    exact of_resolveTenantKey hkey hkeys

end Authorization

/-! ### Admission -/

variable {required : RequiredPermission} {userId : Uuid} {grants : AuthorizationGrants}
  {ability : Ability} {workspaceId : Option Uuid}

/-- The one decision of a route is to require this permission. -/
structure Route.Requires (route : Route) (required : RequiredPermission) : Prop where
  permission : route.get (·.required) = some required
  notPublic : route.get (·.isPublic) ≠ some true
  notAuthenticatedOnly : route.get (·.isAuthenticatedOnly) ≠ some true

/-- What the admission of a user to an administrative route rests on. -/
structure AdministrativeAdmission (userId : Uuid) (grants : AuthorizationGrants)
    (ability : Ability) (required : RequiredPermission) (workspaceId : Option Uuid) : Prop where
  /-- A rule for this is not conditioned on the owner. -/
  unowned : ∃ rule ∈ ability,
    rule.relevant required.action.value required.subject.value = true ∧
      ∀ condition ∈ rule.condition, subjectOwnerKey required.subject.value ≠ some condition.1
  /-- In a named workspace, the ability allows this on every record of the caller there. -/
  ownRecord : required.isDeniedAsNotFound = false → ∀ w ∈ workspaceId,
    ∀ tenantKey ∈ subjectTenantKey required.subject.value, ∀ record : Record,
      record tenantKey = .string w →
        (∀ key ∈ subjectOwnerKey required.subject.value, record key = .string userId) →
          ability.can required.action.value required.subject.value record = true
  granted : grants.Administers required.action.value required.subject.value
  notOwn : ¬ grants.OwnOnly

theorem inheritedKey_value (subject : AuthorizationSubject) :
    inheritedKey subject.value = none := by
  cases subject <;> rfl

/-- A passed decision on an administrative route. -/
theorem administrativeAdmission_of_authorize
    (hability : createForUser userId grants = .ok ability)
    (hownable : isOwnableSubject required.subject = true)
    (hadmin : required.isAdministrative = true)
    (hpass : authorize ability required workspaceId userId = .ok ()) :
    AdministrativeAdmission userId grants ability required workspaceId := by
  obtain ⟨ownerKey, howner⟩ := Option.isSome_iff_exists.mp hownable
  unfold authorize at hpass
  simp only [hadmin, Bool.true_and] at hpass
  split at hpass
  · cases hpass
  next hrule =>
  split at hpass
  · cases hpass
  split at hpass
  case isFalse => cases hpass
  next hallowed =>
  have hrule' : hasNonOwnerScopedRule ability required.action required.subject = true := by
    simpa using hrule
  simp only [hasNonOwnerScopedRule, howner, List.any_eq_true, Bool.and_eq_true] at hrule'
  obtain ⟨rule, hmem, hrelevant, hfree⟩ := hrule'
  have hfree' : ∀ condition ∈ rule.condition, condition.1 ≠ ownerKey := by
    simpa [Option.all_eq_true] using hfree
  obtain ⟨record, hcan, hunowned⟩ := exists_unowned_record hmem hrelevant hfree'
  have hgranted := administers_of_can hability howner hcan hunowned
  refine ⟨⟨rule, hmem, hrelevant, fun condition hcondition => ?_⟩, ?_, hgranted,
    fun hown => hown.not_administers hgranted⟩
  · rw [howner]
    exact fun heq => hfree' condition hcondition (Option.some_inj.mp heq).symm
  · rintro hdenied w hw tenantKey htenantKey record hrecord hrecordOwner
    obtain rfl := Option.mem_def.mp hw
    have htenant : subjectTenantKey required.subject.value = some tenantKey := htenantKey
    simp only [isAllowed, isTenantScopedSubject, htenant, hdenied, Option.isSome_some, if_true,
      Bool.or_false] at hallowed
    refine can_of_can_stub hability hallowed hrecordOwner (fun key hkey => ?_)
      (inheritedKey_value _)
    obtain rfl : tenantKey = key := Option.some_inj.mp (htenant.symm.trans hkey)
    rw [hrecord]
    cases hsubject : required.subject <;> rw [hsubject] at howner htenant <;>
      simp [AuthorizationSubject.value, subjectOwnerKey, subjectTenantKey] at howner htenant
    -- the membership is the one subject with an owner and a tenant
    subst howner
    subst htenant
    rfl

/-- An administrative route on the roster of a workspace. -/
def suspendRoute : Route where
  handler := ⟨none, none, some ⟨.suspend, .workspaceMembership, true, false⟩⟩
  controller := ⟨none, none, none⟩

/-- A member of one workspace who may suspend there. -/
def suspenderGrants : AuthorizationGrants where
  platformPermissions := [readOwnUser.toPermissionGrant]
  workspaceMemberships :=
    [⟨.string "acme", .string "active", [suspendWorkspaceMembership.toPermissionGrant]⟩]

def acmeRequest : AuthorizedRequest where
  user := some "ann"
  params name := if name = "workspaceId" then some "acme" else none
  body := none

end NestApi
