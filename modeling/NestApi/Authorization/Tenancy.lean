import Mathlib.Data.List.Basic
import NestApi.Authorization.Ability

/-!
# What a compiled ability allows

The ability of a user allows exactly what one of the grants allows by itself. The
statements here are about arbitrary, possibly malformed grants: they characterise the
instance check, and derive from it that a grant in one workspace says nothing about
the records of another.
-/

namespace NestApi.Authorization

/-- A permission speaks about an action on a subject. -/
def PermissionGrant.covers (p : PermissionGrant) (action subject : String) : Prop :=
  Authorization.covers (p.action, p.subject) (action, subject) = true

/-- What one platform permission allows by itself. -/
def PlatformAllows (userId : String) (p : PermissionGrant) (action subject : String)
    (record : Record) : Prop :=
  p.scope = .string RoleScope.platform.value ∧ p.covers action subject ∧
    (p.ownership = .string PermissionOwnership.any.value ∨
      p.ownership = .string PermissionOwnership.own.value ∧
        ∃ key, resolveOwnerKey p.subject = .ok key ∧ record key = .string userId)

/-- What one permission of a membership of `workspaceId` allows by itself. -/
def WorkspaceAllows (workspaceId : String) (p : PermissionGrant) (action subject : String)
    (record : Record) : Prop :=
  p.scope = .string RoleScope.workspace.value ∧ p.covers action subject ∧
    ∃ key, resolveTenantKey p.subject = .ok key ∧ record key = .string workspaceId

/-- What one membership allows: only if active, and only in the workspace it names. -/
def MembershipAllows (m : WorkspaceMembershipGrant) (action subject : String)
    (record : Record) : Prop :=
  m.status = .string WorkspaceMembershipStatus.active.value ∧
    ∃ workspaceId, m.workspaceId = .string workspaceId ∧ workspaceId ≠ "" ∧
      ∃ p ∈ m.permissions, WorkspaceAllows workspaceId p action subject record

/-- A membership the factory compiles: active, in a workspace with a name. -/
def WorkspaceMembershipGrant.counts (m : WorkspaceMembershipGrant) : Bool :=
  m.status = .string WorkspaceMembershipStatus.active.value &&
    match m.workspaceId with
    | .string workspaceId => workspaceId ≠ ""
    | _ => false

/-- A membership without its permissions of another scope. -/
def WorkspaceMembershipGrant.scoped (m : WorkspaceMembershipGrant) : WorkspaceMembershipGrant :=
  { m with
    permissions := m.permissions.filter fun p => p.scope = .string RoleScope.workspace.value }

/-- The grants without what the factory drops: permissions of the wrong scope, platform
permissions with an unknown ownership tag, memberships that are not active or name no
workspace. -/
def AuthorizationGrants.effective (g : AuthorizationGrants) : AuthorizationGrants where
  platformPermissions := g.platformPermissions.filter fun p =>
    p.scope = .string RoleScope.platform.value ∧
      (p.ownership = .string PermissionOwnership.own.value ∨
        p.ownership = .string PermissionOwnership.any.value)
  workspaceMemberships := (g.workspaceMemberships.filter (·.counts)).map (·.scoped)

/-- Some rule of a list allows the action on the record. -/
abbrev Allows (rules : List Rule) (action subject : String) (record : Record) : Prop :=
  Ability.can rules action subject record = true

theorem allows_nil {action subject : String} {record : Record} :
    ¬ Allows [] action subject record := by
  simp [Allows, Ability.can]

theorem allows_append {xs ys : List Rule} {action subject : String} {record : Record} :
    Allows (xs ++ ys) action subject record ↔
      Allows xs action subject record ∨ Allows ys action subject record := by
  simp [Allows, Ability.can, List.any_append]

/-- A rule built by `can` speaks about what its permission speaks about. -/
theorem relevant_can {p : PermissionGrant} {condition : Option (String × String)}
    {action subject : String} :
    (Rule.can p.action p.subject condition).relevant action subject = true ↔
      p.covers action subject := by
  unfold PermissionGrant.covers Rule.relevant Rule.can covers
  by_cases hempty : p.subject = ""
  · simp [hempty]
  · simp [hempty]

theorem allows_can {p : PermissionGrant} {condition : Option (String × String)}
    {action subject : String} {record : Record} :
    Allows [Rule.can p.action p.subject condition] action subject record ↔
      p.covers action subject ∧
        ∀ key value, condition = some (key, value) → record key = .string value := by
  have hcond : (Rule.can p.action p.subject condition).matchesConditions record = true ↔
      ∀ key value, condition = some (key, value) → record key = .string value := by
    unfold Rule.matchesConditions Rule.can
    rcases condition with _ | ⟨key, value⟩
    · simp
    · simp
  simp only [Allows, Ability.can, List.any_cons, List.any_nil, Bool.or_false,
    Bool.and_eq_true, relevant_can, hcond]

/-- The rules of a loop are the rules of its rounds. -/
theorem allows_collectRules {α : Type} {f : α → Except String (List Rule)} {xs : List α}
    {rules : List Rule} (h : collectRules f xs = .ok rules) {action subject : String}
    {record : Record} :
    Allows rules action subject record ↔
      ∃ x ∈ xs, ∃ rs, f x = .ok rs ∧ Allows rs action subject record := by
  induction xs generalizing rules with
  | nil =>
    obtain rfl : [] = rules := by simpa [collectRules] using h
    simp [allows_nil]
  | cons x xs ih =>
    unfold collectRules at h
    cases hx : f x with
    | error e => simp [hx, bind, Except.bind] at h
    | ok rs =>
      cases hrest : collectRules f xs with
      | error e => simp [hx, hrest, bind, Except.bind] at h
      | ok rest =>
        obtain rfl : rs ++ rest = rules := by
          simpa [hx, hrest, bind, Except.bind, pure, Except.pure] using h
        rw [allows_append, ih hrest]
        simp [hx]

/-- A round that gives no rule can be skipped. -/
theorem collectRules_filter {α : Type} {f : α → Except String (List Rule)} {p : α → Bool}
    (hskip : ∀ x, p x = false → f x = .ok []) (xs : List α) :
    collectRules f (xs.filter p) = collectRules f xs := by
  induction xs with
  | nil => rfl
  | cons x xs ih =>
    cases hp : p x with
    | true => simp only [List.filter_cons, hp, if_true, collectRules, ih]
    | false =>
      rw [List.filter_cons_of_neg (by simp [hp]), ih, collectRules, hskip x hp]
      cases hrest : collectRules f xs with
      | error e => rfl
      | ok rest => rfl

theorem collectRules_map {α β : Type} {f : β → Except String (List Rule)} {g : α → β}
    (xs : List α) : collectRules f (xs.map g) = collectRules (fun x => f (g x)) xs := by
  induction xs with
  | nil => rfl
  | cons x xs ih => simp only [List.map_cons, collectRules, ih]

theorem collectRules_congr {α : Type} {f g : α → Except String (List Rule)} {xs : List α}
    (h : ∀ x ∈ xs, f x = g x) : collectRules f xs = collectRules g xs := by
  induction xs with
  | nil => rfl
  | cons x xs ih =>
    simp only [collectRules, h x (by simp), ih fun y hy => h y (by simp [hy])]

/-- The platform loop: what its rules for one permission allow. -/
theorem allows_grantPlatform {userId : String} {p : PermissionGrant} {rules : List Rule}
    (h : grantPlatform userId p = .ok rules) {action subject : String} {record : Record} :
    Allows rules action subject record ↔ PlatformAllows userId p action subject record := by
  unfold grantPlatform at h
  by_cases hscope : p.scope = .string RoleScope.platform.value
  · rw [if_neg (not_not.mpr hscope)] at h
    unfold grant at h
    by_cases hown : p.ownership = .string PermissionOwnership.own.value
    · rw [if_pos hown] at h
      cases hkey : resolveOwnerKey p.subject with
      | error e => simp [hkey, bind, Except.bind] at h
      | ok key =>
        obtain rfl : [Rule.can p.action p.subject (some (key, userId))] = rules := by
          simpa [hkey, bind, Except.bind, pure, Except.pure] using h
        rw [allows_can]
        simp [PlatformAllows, hscope, hown, hkey, PermissionOwnership.value]
    · rw [if_neg hown] at h
      by_cases hany : p.ownership = .string PermissionOwnership.any.value
      · rw [if_pos hany] at h
        obtain rfl : [Rule.can p.action p.subject none] = rules := by
          simpa [pure, Except.pure] using h
        rw [allows_can]
        simp [PlatformAllows, hscope, hany]
      · rw [if_neg hany] at h
        obtain rfl : [] = rules := by simpa [pure, Except.pure] using h
        simp [PlatformAllows, hown, hany, allows_nil]
  · rw [if_pos hscope] at h
    obtain rfl : [] = rules := by simpa [pure, Except.pure] using h
    simp [PlatformAllows, hscope, allows_nil]

/-- The inner membership loop: what its rules for one permission allow. -/
theorem allows_grantWorkspace {workspaceId : String} {p : PermissionGrant} {rules : List Rule}
    (h : grantWorkspace workspaceId p = .ok rules) {action subject : String}
    {record : Record} :
    Allows rules action subject record ↔ WorkspaceAllows workspaceId p action subject record := by
  unfold grantWorkspace at h
  by_cases hscope : p.scope = .string RoleScope.workspace.value
  · rw [if_neg (not_not.mpr hscope)] at h
    cases hkey : resolveTenantKey p.subject with
    | error e => simp [hkey, bind, Except.bind] at h
    | ok key =>
      obtain rfl : [Rule.can p.action p.subject (some (key, workspaceId))] = rules := by
        simpa [hkey, bind, Except.bind, pure, Except.pure] using h
      rw [allows_can]
      simp [WorkspaceAllows, hscope, hkey]
  · rw [if_pos hscope] at h
    obtain rfl : [] = rules := by simpa [pure, Except.pure] using h
    simp [WorkspaceAllows, hscope, allows_nil]

/-- A loop whose rounds all succeed: every round has its rules. -/
theorem collectRules_round {α : Type} {f : α → Except String (List Rule)} {xs : List α}
    {rules : List Rule} (h : collectRules f xs = .ok rules) {x : α} (hx : x ∈ xs) :
    ∃ rs, f x = .ok rs := by
  induction xs generalizing rules with
  | nil => simp at hx
  | cons y ys ih =>
    unfold collectRules at h
    cases hy : f y with
    | error e => simp [hy, bind, Except.bind] at h
    | ok rs =>
      cases hrest : collectRules f ys with
      | error e => simp [hy, hrest, bind, Except.bind] at h
      | ok rest =>
        rcases List.mem_cons.mp hx with rfl | hmem
        · exact ⟨rs, hy⟩
        · exact ih hrest hmem

/-- A loop allows what one of its rounds allows. -/
theorem allows_loop {α : Type} {f : α → Except String (List Rule)} {xs : List α}
    {rules : List Rule} (h : collectRules f xs = .ok rules) {action subject : String}
    {record : Record} {P : α → Prop}
    (hround : ∀ x rs, f x = .ok rs → (Allows rs action subject record ↔ P x)) :
    Allows rules action subject record ↔ ∃ x ∈ xs, P x := by
  rw [allows_collectRules h]
  constructor
  · rintro ⟨x, hx, rs, hrs, hallows⟩
    exact ⟨x, hx, (hround x rs hrs).mp hallows⟩
  · rintro ⟨x, hx, hP⟩
    obtain ⟨rs, hrs⟩ := collectRules_round h hx
    exact ⟨x, hx, rs, hrs, (hround x rs hrs).mpr hP⟩

/-- The membership loop: what its rules for one membership allow. -/
theorem allows_grantMembership {m : WorkspaceMembershipGrant} {rules : List Rule}
    (h : grantMembership m = .ok rules) {action subject : String} {record : Record} :
    Allows rules action subject record ↔ MembershipAllows m action subject record := by
  unfold grantMembership at h
  by_cases hstatus : m.status = .string WorkspaceMembershipStatus.active.value
  · rw [if_neg (not_not.mpr hstatus)] at h
    cases hid : m.workspaceId with
    | string workspaceId =>
      simp only [hid] at h
      by_cases hempty : workspaceId = ""
      · rw [if_pos hempty] at h
        obtain rfl : [] = rules := by simpa [pure, Except.pure] using h
        simp [MembershipAllows, hid, hempty, allows_nil]
      · rw [if_neg hempty] at h
        rw [allows_loop h fun p rs hp => allows_grantWorkspace hp]
        simp [MembershipAllows, hstatus, hid, hempty]
    | _ =>
      simp only [hid] at h
      obtain rfl : [] = rules := by simpa [pure, Except.pure] using h
      simp [MembershipAllows, hid, allows_nil]
  · rw [if_pos hstatus] at h
    obtain rfl : [] = rules := by simpa [pure, Except.pure] using h
    simp [MembershipAllows, hstatus, allows_nil]

/-- The three loops of the factory. -/
theorem createForUser_loops {userId : String} {grants : AuthorizationGrants} {ability : Ability}
    (h : createForUser userId grants = .ok ability) :
    ∃ intrinsic platform memberships,
      collectRules (grantPlatform userId)
        (authenticatedUserPermissions.map PermissionDefinition.toPermissionGrant) =
          .ok intrinsic ∧
      collectRules (grantPlatform userId) grants.platformPermissions = .ok platform ∧
      collectRules grantMembership grants.workspaceMemberships = .ok memberships ∧
      ability = intrinsic ++ platform ++ memberships := by
  unfold createForUser at h
  cases hintrinsic : collectRules (grantPlatform userId)
      (authenticatedUserPermissions.map PermissionDefinition.toPermissionGrant) with
  | error e => simp [hintrinsic, bind, Except.bind] at h
  | ok intrinsic =>
    cases hplatform : collectRules (grantPlatform userId) grants.platformPermissions with
    | error e => simp [hintrinsic, hplatform, bind, Except.bind] at h
    | ok platform =>
      cases hmemberships : collectRules grantMembership grants.workspaceMemberships with
      | error e => simp [hintrinsic, hplatform, hmemberships, bind, Except.bind] at h
      | ok memberships =>
        refine ⟨intrinsic, platform, memberships, rfl, rfl, rfl, ?_⟩
        simpa [hintrinsic, hplatform, hmemberships, bind, Except.bind, pure, Except.pure]
          using h.symm

/-- The ability allows what one of the user's grants allows by itself. -/
theorem allows_createForUser {userId : String} {grants : AuthorizationGrants}
    {ability : Ability} (h : createForUser userId grants = .ok ability)
    {action subject : String} {record : Record} :
    Allows ability action subject record ↔
      (∃ p ∈ authenticatedUserPermissions.map PermissionDefinition.toPermissionGrant ++
          grants.platformPermissions, PlatformAllows userId p action subject record) ∨
      ∃ m ∈ grants.workspaceMemberships, MembershipAllows m action subject record := by
  obtain ⟨intrinsic, platform, memberships, hintrinsic, hplatform, hmemberships, rfl⟩ :=
    createForUser_loops h
  rw [allows_append, allows_append,
    allows_loop hintrinsic fun p rs hp => allows_grantPlatform hp,
    allows_loop hplatform fun p rs hp => allows_grantPlatform hp,
    allows_loop hmemberships fun m rs hm => allows_grantMembership hm]
  simp only [List.mem_append, or_and_right, exists_or]

/-- What the factory drops makes no difference to the ability. -/
theorem createForUser_effective (userId : String) (grants : AuthorizationGrants) :
    createForUser userId grants.effective = createForUser userId grants := by
  have hplatform : collectRules (grantPlatform userId) grants.effective.platformPermissions =
      collectRules (grantPlatform userId) grants.platformPermissions := by
    refine collectRules_filter (fun p hp => ?_) _
    by_cases hscope : p.scope = .string RoleScope.platform.value
    · simp only [hscope, true_and, decide_eq_false_iff_not, not_or] at hp
      simp [grantPlatform, grant, hscope, hp.1, hp.2, pure, Except.pure]
    · simp [grantPlatform, hscope, pure, Except.pure]
  have hmemberships : collectRules grantMembership grants.effective.workspaceMemberships =
      collectRules grantMembership grants.workspaceMemberships := by
    rw [AuthorizationGrants.effective, collectRules_map]
    have hinner : ∀ m : WorkspaceMembershipGrant, grantMembership m.scoped = grantMembership m := by
      intro m
      have hfilter : ∀ workspaceId, collectRules (grantWorkspace workspaceId)
          (m.permissions.filter fun p => p.scope = .string RoleScope.workspace.value) =
            collectRules (grantWorkspace workspaceId) m.permissions := by
        refine fun workspaceId => collectRules_filter (fun p hp => ?_) _
        simp only [decide_eq_false_iff_not] at hp
        simp [grantWorkspace, hp, pure, Except.pure]
      simp only [grantMembership, WorkspaceMembershipGrant.scoped, hfilter]
    simp only [hinner]
    refine collectRules_filter (fun m hm => ?_) _
    unfold WorkspaceMembershipGrant.counts at hm
    by_cases hstatus : m.status = .string WorkspaceMembershipStatus.active.value
    · cases hid : m.workspaceId with
      | string workspaceId =>
        obtain rfl : workspaceId = "" := by simpa [hstatus, hid] using hm
        simp [grantMembership, hid, pure, Except.pure]
      | _ => simp [grantMembership, hid, pure, Except.pure]
    · simp [grantMembership, hstatus, pure, Except.pure]
  simp only [createForUser, hplatform, hmemberships]

/-- A workspace permission covers no record outside its workspace: the subject it names
is the subject asked about. -/
theorem resolveTenantKey_of_covers {p : PermissionGrant} {action subject key : String}
    (hcovers : p.covers action subject) (hkey : resolveTenantKey p.subject = .ok key) :
    p.subject = subject := by
  simp only [PermissionGrant.covers, covers, Bool.and_eq_true, Bool.or_eq_true,
    decide_eq_true_eq] at hcovers
  rcases hcovers.2 with (heq | hall) | hempty
  · exact heq
  · have hnone : (resolveTenantKey "all").toOption = none := by decide
    simp [← hall, hkey, Except.toOption] at hnone
  · have hnone : (resolveTenantKey "").toOption = none := by decide
    simp [← hempty, hkey, Except.toOption] at hnone

/-- Two grant sets that differ at most in what is held in one workspace. -/
def SameOutside (workspaceId : String) (g g' : AuthorizationGrants) : Prop :=
  g.platformPermissions = g'.platformPermissions ∧
    (g.workspaceMemberships.filter fun m => m.workspaceId ≠ .string workspaceId) =
      g'.workspaceMemberships.filter fun m => m.workspaceId ≠ .string workspaceId

/-- The record lies outside a workspace: its tenant column names another one. -/
def OutsideWorkspace (workspaceId subject : String) (record : Record) : Prop :=
  ∀ key, resolveTenantKey subject = .ok key → record key ≠ .string workspaceId

/-- A membership that allows something on a record outside a workspace is a membership
of another workspace. -/
theorem MembershipAllows.outside {m : WorkspaceMembershipGrant}
    {workspaceId action subject : String} {record : Record}
    (h : MembershipAllows m action subject record)
    (houtside : OutsideWorkspace workspaceId subject record) :
    m.workspaceId ≠ .string workspaceId := by
  obtain ⟨-, w, hw, -, p, -, -, hcovers, key, hkey, hrecord⟩ := h
  rintro heq
  obtain rfl : w = workspaceId := by simpa [hw] using heq
  have hsubject := resolveTenantKey_of_covers hcovers hkey
  exact houtside key (hsubject ▸ hkey) hrecord

/-- Grants in one workspace never reach a record outside it. -/
theorem allows_of_sameOutside {userId workspaceId : String} {g g' : AuthorizationGrants}
    {ability ability' : Ability} (h : createForUser userId g = .ok ability)
    (h' : createForUser userId g' = .ok ability') (hsame : SameOutside workspaceId g g')
    {action subject : String} {record : Record}
    (houtside : OutsideWorkspace workspaceId subject record)
    (hallows : Allows ability action subject record) :
    Allows ability' action subject record := by
  rw [allows_createForUser h] at hallows
  rw [allows_createForUser h', ← hsame.1]
  refine hallows.imp_right ?_
  rintro ⟨m, hm, hmallows⟩
  have hother : m ∈ g.workspaceMemberships.filter fun m => m.workspaceId ≠ .string workspaceId :=
    List.mem_filter.mpr ⟨hm, by simpa using hmallows.outside houtside⟩
  rw [hsame.2] at hother
  exact ⟨m, (List.mem_filter.mp hother).1, hmallows⟩

/-- A manager of one workspace, with one malformed grant on the platform side and one
suspended membership. -/
def managerGrants : AuthorizationGrants where
  platformPermissions := [⟨"manage", "all", .string "workspace", .string "any"⟩]
  workspaceMemberships :=
    [⟨.string "acme", .string "active",
      [updateWorkspace.toPermissionGrant, createWorkspaceMembership.toPermissionGrant]⟩,
     ⟨.string "globex", .string "suspended", [updateWorkspace.toPermissionGrant]⟩]

end NestApi.Authorization
