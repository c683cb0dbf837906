import NestApi.Db.LockPlans

/-!
# What every transaction observes when it locks

The row of an account is locked first, child rows are locked under the row of their parent, and
roles are only referenced. Under the condition that keeps the documented order, references to
accounts are references to a row that is already locked.
-/

namespace NestApi

open Txn

/-- What was locked before a request. -/
def ParentFirst (before : List (LockRequest LockedRow)) (r : LockRequest LockedRow) : Prop :=
  match r.row with
  | .user userId => before = [] ∨ ⟨.user userId, .update⟩ ∈ before ∨ r.mode = .keyShare
  | .workspace workspaceId => ⟨.workspace workspaceId, .update⟩ ∈ before ∨
      ∀ q ∈ before, (∃ userId, q.row = .user userId) ∨ ∃ id < workspaceId, q.row = .workspace id
  | .workspaceInvitation workspaceId _ => ⟨.workspace workspaceId, .update⟩ ∈ before ∨ before = []
  | .workspaceMembership workspaceId _ => ⟨.workspace workspaceId, .update⟩ ∈ before
  | .refreshToken userId _ | .fileAsset userId _ => ⟨.user userId, .update⟩ ∈ before
  | .role _ => r.mode = .keyShare

/-- A reference to an account is to a row that is locked. -/
def ReferenceHeld (before : List (LockRequest LockedRow)) (r : LockRequest LockedRow) : Prop :=
  ∀ userId, r = ⟨.user userId, .keyShare⟩ → ⟨.user userId, .update⟩ ∈ before

/-- What is observed in any case, and what is observed if the order is kept. -/
def Disciplined (strict : Prop) (before : List (LockRequest LockedRow))
    (r : LockRequest LockedRow) : Prop :=
  ParentFirst before r ∧ (strict → InOrder before r ∧ ReferenceHeld before r)

namespace LockPlan

variable {userId workspaceId membershipId : Uuid} {ids : List Uuid} {role : SeededRoleName}
  {before : List (LockRequest LockedRow)} {r : LockRequest LockedRow} {strict : Prop}

/-! ### Statements -/

theorem disciplined_first_user {mode : LockMode} (h : mode ≠ .keyShare) :
    Disciplined strict [] ⟨.user userId, mode⟩ := by
  refine ⟨.inl rfl, fun _ => ⟨.inr (by simp), fun u hu => ?_⟩⟩
  simp_all

/-- A workspace after accounts and workspaces with smaller ids. -/
theorem disciplined_workspace {mode : LockMode}
    (h : ∀ q ∈ before, (∃ u, q.row = .user u) ∨ ∃ id < workspaceId, q.row = .workspace id) :
    Disciplined strict before ⟨.workspace workspaceId, mode⟩ := by
  refine ⟨.inr h, fun _ => ⟨.inr fun q hq p hp p' hp' => ?_, fun u hu => by simp at hu⟩⟩
  obtain rfl : toLex (1, workspaceId) = p' := by simpa [LockedRow.place] using hp'
  obtain ⟨u, hrow⟩ | ⟨id, hlt, hrow⟩ := h q hq
  · obtain rfl : toLex (0, u) = p := by simpa [hrow, LockedRow.place] using hp
    exact (Prod.Lex.toLex_le_toLex).mpr (.inl Nat.zero_lt_one)
  · obtain rfl : toLex (1, id) = p := by simpa [hrow, LockedRow.place] using hp
    exact (Prod.Lex.toLex_le_toLex).mpr (.inr ⟨rfl, hlt.le⟩)

/-- Another request for an account that is locked. -/
theorem disciplined_user_again {mode : LockMode} (h : ⟨.user userId, .update⟩ ∈ before) :
    Disciplined strict before ⟨.user userId, mode⟩ := by
  refine ⟨.inr (.inl h), fun _ => ⟨.inl (List.mem_map.mpr ⟨_, h, rfl⟩), fun u hu => ?_⟩⟩
  obtain ⟨rfl, -⟩ : userId = u ∧ mode = .keyShare := by simpa using hu
  exact h

theorem disciplined_workspace_again {mode : LockMode}
    (h : ⟨.workspace workspaceId, .update⟩ ∈ before) :
    Disciplined strict before ⟨.workspace workspaceId, mode⟩ :=
  ⟨.inl h, fun _ => ⟨.inl (List.mem_map.mpr ⟨_, h, rfl⟩), fun u hu => by simp at hu⟩⟩

theorem disciplined_role : Disciplined strict before (references (.role role)) :=
  ⟨rfl, fun _ => ⟨.inr (by simp [references, LockedRow.place]), fun u hu => by
    simp [references] at hu⟩⟩

/-- A reference to an account, which is locked if the order is kept. -/
theorem disciplined_reference (h : strict → ⟨.user userId, .update⟩ ∈ before) :
    Disciplined strict before (references (.user userId)) :=
  ⟨.inr (.inr rfl), fun hstrict =>
    (disciplined_user_again (h hstrict) : Disciplined True before _).2 trivial⟩

/-! ### Blocks -/

/-- The row that is locked before a row of a child table. -/
def parent? : LockedRow → Option LockedRow
  | .workspaceInvitation workspaceId _ | .workspaceMembership workspaceId _ =>
    some (.workspace workspaceId)
  | .refreshToken userId _ | .fileAsset userId _ => some (.user userId)
  | _ => none

/-- A reference to a role, or a row of the `n`-th table whose parent is locked. -/
def ChildOf (n : ℕ) (before : List (LockRequest LockedRow)) (r : LockRequest LockedRow) : Prop :=
  (∃ role, r = ⟨.role role, .keyShare⟩) ∨
    r.row.place = some (toLex (n, "")) ∧ ∃ parent ∈ parent? r.row, ⟨parent, .update⟩ ∈ before

/-- The table of a row does not come after the `n`-th. -/
def UpTo (n : ℕ) (r : LockRequest LockedRow) : Prop := ∀ p ∈ r.row.place, p ≤ toLex (n, "")

theorem ChildOf.mono {n : ℕ} {between : List (LockRequest LockedRow)} (h : ChildOf n before r) :
    ChildOf n (before ++ between) r := by
  obtain hrole | ⟨hplace, parent, hparent, hlocked⟩ := h
  · exact .inl hrole
  · exact .inr ⟨hplace, parent, hparent, List.mem_append_left _ hlocked⟩

theorem ChildOf.upTo {n : ℕ} (h : ChildOf n before r) : UpTo n r := by
  intro p hp
  obtain ⟨role, rfl⟩ | ⟨hplace, -⟩ := h
  · simp [LockedRow.place] at hp
  · rw [hplace] at hp
    exact (Option.mem_some.mp hp).ge

theorem ChildOf.disciplined {n : ℕ} (h : ChildOf n before r)
    (hup : strict → ∀ q ∈ before, UpTo n q) : Disciplined strict before r := by
  obtain ⟨role, rfl⟩ | ⟨hplace, parent, hparent, hlocked⟩ := h
  · exact disciplined_role
  · obtain ⟨row, mode⟩ := r
    have hguarded : ParentFirst before ⟨row, mode⟩ := by
      cases row <;> simp [parent?] at hparent <;> subst hparent
      · exact .inl hlocked
      all_goals exact hlocked
    refine ⟨hguarded, fun hstrict => ⟨.inr fun q hq p hp p' hp' => ?_, fun u hu => ?_⟩⟩
    · rw [hplace] at hp'
      obtain rfl := Option.mem_some.mp hp'
      exact hup hstrict q hq p hp
    · obtain ⟨rfl, -⟩ : row = .user u ∧ mode = .keyShare := by simpa using hu
      simp [parent?] at hparent

theorem disciplined_children {n : ℕ} {rs : List (LockRequest LockedRow)}
    (h : ∀ r ∈ rs, ChildOf n before r) (hup : strict → ∀ q ∈ before, UpTo n q) :
    EveryRequest (Disciplined strict) before rs := by
  refine everyRequest_of_subset fun r hr between hbetween => (h r hr).mono.disciplined ?_
  intro hstrict q hq
  rcases List.mem_append.mp hq with hq | hq
  · exact hup hstrict q hq
  · exact (h q (hbetween hq)).upTo

theorem disciplined_workspaces (h : ∀ q ∈ before, ∃ id, q.row = .user id) :
    EveryRequest (Disciplined strict) before (lockWorkspaceRows ids) := by
  refine everyRequest_of_forall fun done r rest hrs => ?_
  have hsorted : (lockWorkspaceRows ids).Pairwise fun q r =>
      ∃ id id', q.row = .workspace id ∧ r.row = .workspace id' ∧ id < id' :=
    List.pairwise_map.mpr ((pairwise_sortedUnique ids).imp fun hlt => ⟨_, _, rfl, rfl, hlt⟩)
  rw [hrs, List.pairwise_append] at hsorted
  have hr : ∃ id, r = forUpdate (.workspace id) := by
    have hmem : r ∈ lockWorkspaceRows ids := by simp [hrs]
    obtain ⟨id, -, rfl⟩ := List.mem_map.mp hmem
    exact ⟨id, rfl⟩
  obtain ⟨id, rfl⟩ := hr
  refine disciplined_workspace fun q hq => ?_
  rcases List.mem_append.mp hq with hq | hq
  · exact .inl (h q hq)
  · obtain ⟨id₁, id₂, hq₁, hr₂, hlt⟩ := hsorted.2.2 q hq _ List.mem_cons_self
    obtain rfl : id = id₂ := by simpa [forUpdate] using hr₂
    exact .inr ⟨id₁, hlt, hq₁⟩

/-! ### Helpers of the services -/

theorem disciplined_lockUserRow : EveryRequest (Disciplined strict) [] (lockUserRow userId) :=
  ⟨disciplined_first_user (by simp), trivial⟩

theorem disciplined_lockWorkspaceRow (h : ∀ q ∈ before, ∃ id, q.row = .user id) :
    EveryRequest (Disciplined strict) before (lockWorkspaceRow workspaceId) :=
  ⟨disciplined_workspace fun q hq => .inl (h q hq), trivial⟩

@[simp] theorem mem_lockUserRow : r ∈ lockUserRow userId ↔ r = ⟨.user userId, .update⟩ :=
  List.mem_singleton

@[simp] theorem mem_lockWorkspaceRow :
    r ∈ lockWorkspaceRow workspaceId ↔ r = ⟨.workspace workspaceId, .update⟩ :=
  List.mem_singleton

@[simp] theorem mem_lockWorkspaceRows :
    r ∈ lockWorkspaceRows ids ↔ ∃ id ∈ ids, ⟨.workspace id, .update⟩ = r := by
  simp [lockWorkspaceRows, forUpdate, mem_sortedUnique]

@[simp] theorem mem_rewriteRole : r ∈ rewriteRole workspaceId membershipId role ↔
    ⟨.workspaceMembership workspaceId membershipId, .noKeyUpdate⟩ = r ∨
      ⟨.role role, .keyShare⟩ = r := by
  simp [rewriteRole, writes, references, eq_comm]

/-! ### Tables -/

section Tables

variable {n : ℕ} {mode : LockMode} {id : Uuid}

@[simp] theorem upTo_user : UpTo (n + 1) ⟨.user userId, mode⟩ := by
  simp [UpTo, LockedRow.place, Prod.Lex.toLex_le_toLex]

@[simp] theorem upTo_workspace : UpTo (n + 2) ⟨.workspace workspaceId, mode⟩ := by
  simp [UpTo, LockedRow.place, Prod.Lex.toLex_le_toLex]

@[simp] theorem upTo_invitation : UpTo (n + 2) ⟨.workspaceInvitation workspaceId id, mode⟩ := by
  cases n <;> simp [UpTo, LockedRow.place, Prod.Lex.toLex_le_toLex]

@[simp] theorem upTo_membership : UpTo (n + 3) ⟨.workspaceMembership workspaceId id, mode⟩ := by
  cases n <;> simp [UpTo, LockedRow.place, Prod.Lex.toLex_le_toLex]

@[simp] theorem upTo_token : UpTo (n + 4) ⟨.refreshToken userId id, mode⟩ := by
  cases n <;> simp [UpTo, LockedRow.place, Prod.Lex.toLex_le_toLex]

@[simp] theorem upTo_file : UpTo (n + 5) ⟨.fileAsset userId id, mode⟩ := by
  cases n <;> simp [UpTo, LockedRow.place, Prod.Lex.toLex_le_toLex]

@[simp] theorem upTo_role : UpTo n ⟨.role role, mode⟩ := by
  simp [UpTo, LockedRow.place]

@[simp] theorem childOf_invitation : ChildOf 2 before ⟨.workspaceInvitation workspaceId id, mode⟩ ↔
    ⟨.workspace workspaceId, .update⟩ ∈ before := by
  simp [ChildOf, LockedRow.place, parent?]

@[simp] theorem childOf_membership :
    ChildOf 3 before ⟨.workspaceMembership workspaceId id, mode⟩ ↔
      ⟨.workspace workspaceId, .update⟩ ∈ before := by
  simp [ChildOf, LockedRow.place, parent?]

@[simp] theorem childOf_token : ChildOf 4 before ⟨.refreshToken userId id, mode⟩ ↔
    ⟨.user userId, .update⟩ ∈ before := by
  simp [ChildOf, LockedRow.place, parent?]

@[simp] theorem childOf_file : ChildOf 5 before ⟨.fileAsset userId id, mode⟩ ↔
    ⟨.user userId, .update⟩ ∈ before := by
  simp [ChildOf, LockedRow.place, parent?]

@[simp] theorem childOf_role : ChildOf n before ⟨.role role, .keyShare⟩ := .inl ⟨role, rfl⟩

end Tables

/-! ### Transactions -/

theorem disciplined_references
    (h : strict → ∀ id ∈ ids, ⟨.user id, .update⟩ ∈ before) :
    EveryRequest (Disciplined strict) before (ids.map fun id => references (.user id)) := by
  refine everyRequest_of_subset fun r hr between _ => ?_
  obtain ⟨id, hid, rfl⟩ := List.mem_map.mp hr
  exact disciplined_reference fun hstrict => List.mem_append_left _ (h hstrict id hid)

theorem disciplined_endAllSessionsInTransaction {mode : LockMode} {tokens : List Uuid}
    (huser : ⟨.user userId, .update⟩ ∈ before)
    (hup : strict → tokens ≠ [] → ∀ q ∈ before, UpTo 4 q) :
    EveryRequest (Disciplined strict) before
      (endAllSessionsInTransaction ⟨.user userId, mode⟩ userId tokens) := by
  refine ⟨disciplined_user_again huser, ?_⟩
  by_cases hnone : tokens = []
  · simp [hnone]
  · refine disciplined_children (n := 4) (by simp [writes, huser]) fun hstrict => ?_
    simpa [or_imp, forall_and] using hup hstrict hnone

theorem disciplined_closeSolelyOwnedWorkspaces {coOwned : List Uuid}
    (h : ∀ q ∈ before, ∃ id, q.row = .user id) :
    EveryRequest (Disciplined strict) before (closeSolelyOwnedWorkspaces ids coOwned) := by
  refine everyRequest_append.mpr ⟨disciplined_workspaces h, ?_⟩
  refine everyRequest_of_subset fun r hr between _ => ?_
  obtain ⟨id, hid, rfl⟩ := List.mem_map.mp hr
  refine disciplined_workspace_again (List.mem_append_left _ (List.mem_append_right _ ?_))
  exact mem_lockWorkspaceRows.mpr ⟨id, (List.mem_filter.mp hid).1, rfl⟩

theorem upTo_of_mem_closeSolelyOwnedWorkspaces {n : ℕ} {coOwned : List Uuid}
    (h : r ∈ closeSolelyOwnedWorkspaces ids coOwned) : UpTo (n + 2) r := by
  rcases List.mem_append.mp h with h | h
  · obtain ⟨id, -, rfl⟩ := mem_lockWorkspaceRows.mp h
    exact upTo_workspace
  · obtain ⟨id, -, rfl⟩ := List.mem_map.mp h
    exact upTo_workspace

theorem disciplined_upsertMembership {invitedBy : Option Uuid} {rejoins : Bool}
    (hworkspace : ⟨.workspace workspaceId, .update⟩ ∈ before)
    (huser : ⟨.user userId, .update⟩ ∈ before) (hup : strict → ∀ q ∈ before, UpTo 3 q)
    (hinviter : strict → rejoins = true ∨ ∀ id ∈ invitedBy, id = userId) :
    EveryRequest (Disciplined strict) before
      (upsertMembership workspaceId membershipId userId role invitedBy rejoins) := by
  unfold upsertMembership
  split
  · refine disciplined_children (n := 3) ?_ hup
    simp [or_imp, forall_and, hworkspace]
  · next hjoins =>
    refine everyRequest_append.mpr ⟨⟨?_, ?_, ?_, disciplined_role, trivial⟩, ?_⟩
    · exact ChildOf.disciplined (n := 3) (childOf_membership.mpr hworkspace) hup
    · exact disciplined_workspace_again (by simp [hworkspace])
    · exact disciplined_user_again (by simp [huser])
    · refine disciplined_references fun hstrict id hid => ?_
      obtain rfl := (hinviter hstrict).resolve_left hjoins id (Option.mem_toList.mp hid)
      exact List.mem_append_left _ huser

theorem disciplined_leave {withdrawn : List Uuid} :
    EveryRequest (Disciplined strict) [] (leave workspaceId membershipId withdrawn) := by
  simp only [leave, everyRequest_append]
  refine ⟨⟨disciplined_lockWorkspaceRow (by simp), disciplined_children (n := 2) ?_ ?_⟩,
    disciplined_children (n := 3) ?_ ?_⟩ <;> simp [writes, or_imp, forall_and]

theorem disciplined (k : Transaction) :
    EveryRequest (Disciplined k.KeepsOrder) [] (LockPlan.of k) := by
  cases k with
  | deactivate userId owned tokens | deleteAccount userId owned tokens =>
    simp only [LockPlan.of, everyRequest_append]
    refine ⟨⟨disciplined_lockUserRow, disciplined_workspaces ?_⟩,
      disciplined_endAllSessionsInTransaction ?_ fun _ _ => ?_⟩ <;> simp [or_imp, forall_and]
  | gdprErase userId owned coOwned picture unattached tokens =>
    simp only [LockPlan.of, everyRequest_append]
    refine ⟨⟨⟨disciplined_lockUserRow, disciplined_closeSolelyOwnedWorkspaces ?_⟩,
      disciplined_children (n := 5) ?_ fun _ => ?_⟩,
      disciplined_endAllSessionsInTransaction ?_ fun hkeeps hsome => ?_⟩
    · simp
    · simp [writes, or_imp, forall_and]
    · have hclosed : ∀ q ∈ closeSolelyOwnedWorkspaces owned coOwned, UpTo 5 q :=
        fun _ => upTo_of_mem_closeSolelyOwnedWorkspaces
      simpa [or_imp, forall_and] using hclosed
    · simp
    · have hclosed : ∀ q ∈ closeSolelyOwnedWorkspaces owned coOwned, UpTo 4 q :=
        fun _ => upTo_of_mem_closeSolelyOwnedWorkspaces
      obtain hfiles := hkeeps.resolve_right hsome
      simpa [or_imp, forall_and, hfiles] using hclosed
  | addMembership workspaceId membershipId userId actorId role rejoins =>
    simp only [LockPlan.of, everyRequest_append]
    refine ⟨⟨disciplined_lockUserRow, disciplined_lockWorkspaceRow ?_⟩,
      disciplined_upsertMembership ?_ ?_ ?_ fun hkeeps => ?_⟩
    any_goals simp [or_imp, forall_and]
    exact hkeeps
  | changeRole workspaceId membershipId userId role =>
    simp only [LockPlan.of, everyRequest_append]
    refine ⟨⟨disciplined_lockUserRow, disciplined_lockWorkspaceRow ?_⟩,
      disciplined_children (n := 3) ?_ ?_⟩ <;> simp [or_imp, forall_and]
  | suspend workspaceId membershipId withdrawn
  | removeMembership workspaceId membershipId withdrawn => exact disciplined_leave
  | reactivate workspaceId membershipId userId =>
    simp only [LockPlan.of, everyRequest_append]
    refine ⟨⟨disciplined_lockUserRow, disciplined_lockWorkspaceRow ?_⟩,
      disciplined_children (n := 3) ?_ ?_⟩ <;> simp [writes, or_imp, forall_and]
  | transferOwnership workspaceId membershipId userId outgoing =>
    simp only [LockPlan.of, everyRequest_append]
    refine ⟨⟨⟨disciplined_lockUserRow, disciplined_lockWorkspaceRow ?_⟩,
      disciplined_children (n := 3) ?_ ?_⟩, disciplined_children (n := 3) ?_ ?_⟩ <;>
      simp [or_imp, forall_and]
  | createInvitation workspaceId invitationId invitedUserId role lapsed =>
    simp only [LockPlan.of, everyRequest_append, everyRequest_cons, everyRequest_nil, and_true]
    refine ⟨⟨⟨disciplined_lockWorkspaceRow ?_, disciplined_children (n := 2) ?_ ?_⟩,
      ChildOf.disciplined (n := 2) ?_ ?_, disciplined_workspace_again ?_, disciplined_role⟩,
      disciplined_references fun hkeeps => ?_⟩
    any_goals simp [writes, inserts, or_imp, forall_and]
    obtain rfl : invitedUserId = none := hkeeps
    simp
  | resendInvitation workspaceId invitationId | revokeInvitation workspaceId invitationId =>
    exact ⟨⟨.inr rfl, fun _ => ⟨.inr (by simp), by simp [ReferenceHeld, writes, writesKey]⟩⟩,
      trivial⟩
  | acceptInvitation workspaceId invitationId membershipId actorId invitedBy role rejoins =>
    simp only [LockPlan.of, everyRequest_append]
    refine ⟨⟨⟨disciplined_lockUserRow, disciplined_lockWorkspaceRow ?_⟩,
      disciplined_children (n := 2) ?_ ?_⟩, disciplined_upsertMembership ?_ ?_ ?_ fun hkeeps => ?_⟩
    any_goals simp [writes, or_imp, forall_and]
    exact hkeeps
  | createWorkspace workspaceId membershipId actorId =>
    simp only [LockPlan.of, everyRequest_append]
    refine ⟨⟨disciplined_lockUserRow, disciplined_workspace ?_, trivial⟩,
      (disciplined_upsertMembership ?_ ?_ ?_ fun _ => ?_ : EveryRequest _ _
        (upsertMembership workspaceId membershipId actorId .workspaceOwner none false))⟩ <;>
      simp [inserts, or_imp, forall_and]
  | removeWorkspace workspaceId => exact ⟨disciplined_workspace (by simp), trivial⟩
  | rotate userId tokenId childId family =>
    simp only [LockPlan.of, everyRequest_append]
    refine ⟨⟨⟨disciplined_lockUserRow, disciplined_children (n := 4) ?_ ?_⟩,
      disciplined_children (n := 4) ?_ ?_⟩, ChildOf.disciplined (n := 4) ?_ ?_,
      disciplined_user_again ?_, trivial⟩ <;>
      simp [writes, inserts, lockRefreshTokenFamily, forUpdate, or_imp, forall_and]
  | revokeFamily userId family =>
    simp only [LockPlan.of, everyRequest_append]
    refine ⟨⟨disciplined_lockUserRow, disciplined_children (n := 4) ?_ ?_⟩,
      disciplined_children (n := 4) ?_ ?_⟩ <;>
      simp [writes, lockRefreshTokenFamily, forUpdate, or_imp, forall_and]
  | endAllSessions userId tokens =>
    simp only [LockPlan.of, everyRequest_append]
    refine ⟨disciplined_lockUserRow, disciplined_endAllSessionsInTransaction ?_ ?_⟩ <;> simp
  | setProfileImage userId requested current =>
    simp only [LockPlan.of, everyRequest_append]
    refine ⟨⟨⟨disciplined_lockUserRow, disciplined_children (n := 5) ?_ ?_⟩,
      disciplined_user_again ?_, trivial⟩, disciplined_children (n := 5) ?_ ?_⟩ <;>
      simp [writes, writesKey, references, or_imp, forall_and]

/-- A transaction that locks an invitation first locks nothing else. -/
theorem eq_nil_of_head {k : Transaction} {id : Uuid} {rest : List (LockRequest LockedRow)}
    (h : LockPlan.of k = r :: rest) (hr : r.row = .workspaceInvitation workspaceId id) :
    rest = [] := by
  obtain ⟨row, mode⟩ := r
  obtain rfl : row = _ := hr
  cases k <;> simp_all [LockPlan.of, lockUserRow, lockWorkspaceRow, leave, forUpdate]

/-! ### The documented order -/

theorem not_inOrder_reference {q : LockRequest LockedRow} (hq : q ∈ before)
    (hrow : q.row = .workspace workspaceId) (hfree : ∀ mode, ⟨.user userId, mode⟩ ∉ before) :
    ¬ InOrder before (references (.user userId)) := by
  rintro (h | h)
  · obtain ⟨⟨row, mode⟩, hmem, rfl : row = _⟩ := List.mem_map.mp h
    exact hfree mode hmem
  · have hle := h q hq _ (by rw [hrow]; rfl) _ rfl
    simp [Prod.Lex.toLex_le_toLex] at hle

end LockPlan

open LockPlan in
/-- The condition is exact. -/
theorem Transaction.ordered_iff (k : Transaction) : k.Ordered ↔ k.KeepsOrder := by
  constructor
  · intro h
    unfold Transaction.Ordered at h
    cases k with
    | addMembership workspaceId membershipId userId actorId role rejoins =>
      by_contra hkeeps
      obtain ⟨hjoins, hne⟩ := not_or.mp hkeeps
      simp only [LockPlan.of, upsertMembership, if_neg hjoins, insertMembership,
        everyRequest_append] at h
      refine not_inOrder_reference (q := ⟨.workspace workspaceId, .update⟩) ?_ rfl ?_ h.2.2.1
      · simp
      · simp [inserts, references, hne]
    | createInvitation workspaceId invitationId invitedUserId role lapsed =>
      by_contra hkeeps
      obtain ⟨id, rfl⟩ := Option.ne_none_iff_exists'.mp hkeeps
      simp only [LockPlan.of, everyRequest_append] at h
      refine not_inOrder_reference (q := ⟨.workspace workspaceId, .update⟩) ?_ rfl ?_ h.2.1
      · simp
      · simp [inserts, references, writes]
    | acceptInvitation workspaceId invitationId membershipId actorId invitedBy role rejoins =>
      by_contra hkeeps
      obtain ⟨hjoins, hne⟩ := not_or.mp hkeeps
      push Not at hne
      obtain ⟨id, rfl, hne⟩ := hne
      simp only [LockPlan.of, upsertMembership, if_neg hjoins, insertMembership,
        everyRequest_append] at h
      refine not_inOrder_reference (q := ⟨.workspace workspaceId, .update⟩) ?_ rfl ?_ h.2.2.1
      · simp
      · simp [inserts, references, writes, hne]
    | gdprErase userId owned coOwned picture unattached tokens =>
      by_contra hkeeps
      obtain ⟨hfiles, htokens⟩ := not_or.mp hkeeps
      obtain ⟨id, hid⟩ := List.exists_mem_of_ne_nil _ hfiles
      obtain ⟨token, tokens, rfl⟩ := List.exists_cons_of_ne_nil htokens
      simp only [LockPlan.of, everyRequest_append, endAllSessionsInTransaction, List.map_cons,
        everyRequest_cons] at h
      rcases h.2.2.1 with h | h
      · obtain ⟨r, hr, hrow⟩ : ∃ r ∈ closeSolelyOwnedWorkspaces owned coOwned,
            r.row = .refreshToken userId token := by simpa [writes, writesKey] using h
        have hle := upTo_of_mem_closeSolelyOwnedWorkspaces (n := 0) hr (toLex (4, ""))
          (by rw [hrow]; rfl)
        simp [Prod.Lex.toLex_le_toLex] at hle
      · have hfile : writes (.fileAsset userId id) ∈ (picture.toList ++ unattached).map
            fun id => writes (.fileAsset userId id) := List.mem_map.mpr ⟨id, hid, rfl⟩
        have hle := h (writes (.fileAsset userId id))
          (List.mem_append_left _ (List.mem_append_right _ (List.mem_append_right _ hfile)))
          (toLex (5, "")) rfl (toLex (4, "")) rfl
        simp [Prod.Lex.toLex_le_toLex] at hle
    | _ => trivial
  · intro hkeeps
    exact (disciplined k).imp fun before r hr => (hr.2 hkeeps).1

end NestApi
