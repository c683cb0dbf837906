import NestApi.Properties.Lifecycle

/-!
# Authority when a roster operation commits

The permission of a roster operation is checked by the guard, the rank of the caller before the
workspace lock, and only the target is read under it. A caller who is demoted, suspended or
removed in between acts once more with the authority that was taken away.
-/

namespace NestApi

open Txn

variable {a : Agent Request} {L : RowLock → Prop} {w : SystemWorld} {ev : Event}
  {db db' : Database} {workspaceId actorId userId : Uuid}

/-! ### The law -/

instance (db : Database) (userId : Uuid) : Decidable (db.ManageAll userId) :=
  inferInstanceAs (Decidable (∃ r ∈ db.userRoles, _ ∧ _))

/-- The caller may do the operation to the target as it is now, and hand out the role: as
somebody who may do everything, or as an active member with the permission, whom neither the
target nor the role outranks. Only an owner hands over. -/
def Database.MayOperate (db : Database) (op : RosterOperation) (workspaceId actorId : Uuid)
    (target : Option WorkspaceMembership) (granted : Option SeededRoleName) : Prop :=
  db.ManageAll actorId ∨ ∃ own ∈ db.workspaceMemberships, own.workspaceId = workspaceId ∧
    own.userId = actorId ∧ own.status = .active ∧ op.required ∈ own.role.permissions ∧
      (∀ t ∈ target, ∀ m ∈ db.workspaceMemberships, m.id = t.id → m.role.rank ≤ own.role.rank) ∧
        (∀ r ∈ granted, r.rank ≤ own.role.rank) ∧
          (op = .transferOwnership → own.role = .workspaceOwner)

instance (db : Database) (op : RosterOperation) (workspaceId actorId : Uuid)
    (target : Option WorkspaceMembership) (granted : Option SeededRoleName) :
    Decidable (db.MayOperate op workspaceId actorId target granted) :=
  inferInstanceAs (Decidable (_ ∨ ∃ own ∈ db.workspaceMemberships, _))

/-- A roster operation, as its event reports it. -/
structure RosterChange where
  op : RosterOperation
  workspaceId : Uuid
  actorId : Uuid
  target : Option WorkspaceMembership
  granted : Option SeededRoleName

/-- The roster operation that an event reports. -/
def Event.rosterChange? : Event → Option RosterChange
  | .rosterChanged op workspaceId actorId target granted =>
    some ⟨op, workspaceId, actorId, target, granted⟩
  | _ => none

/-- Whoever commits a roster operation has the authority for it in that very state. -/
def AuthorityAtCommit (init : Database) (log : List (Entry Database Event Request)) : Prop :=
  EveryEntry (fun e l => ∀ c ∈ e.event.rosterChange?,
    (stateOf init l).MayOperate c.op c.workspaceId c.actorId c.target c.granted) log

instance (init : Database) (log : List (Entry Database Event Request)) :
    Decidable (AuthorityAtCommit init log) :=
  inferInstanceAs (Decidable (EveryEntry _ log))

/-! ### Standing -/

/-- A role reaches as far as another one. -/
def SeededRoleName.Covers (role role' : SeededRoleName) : Prop :=
  role'.rank ≤ role.rank ∧ ∀ p ∈ role'.permissions, p ∈ role.permissions

instance (role role' : SeededRoleName) : Decidable (role.Covers role') :=
  inferInstanceAs (Decidable (_ ∧ _))

theorem SeededRoleName.Covers.refl (role : SeededRoleName) : role.Covers role :=
  ⟨le_rfl, fun _ hp => hp⟩

theorem SeededRoleName.Covers.trans {role role' role'' : SeededRoleName} (h : role.Covers role')
    (h' : role'.Covers role'') : role.Covers role'' :=
  ⟨h'.1.trans h.1, fun p hp => h.2 p (h'.2 p hp)⟩

/-- The user is an active member, in a role that reaches as far as the given one. -/
def Database.Stands (db : Database) (workspaceId userId : Uuid) (role : SeededRoleName) : Prop :=
  ∃ m ∈ db.workspaceMemberships, m.workspaceId = workspaceId ∧ m.userId = userId ∧
    m.status = .active ∧ m.role.Covers role

instance (db : Database) (workspaceId userId : Uuid) (role : SeededRoleName) :
    Decidable (db.Stands workspaceId userId role) :=
  inferInstanceAs (Decidable (∃ m ∈ db.workspaceMemberships, _))

/-- The entry, after the history, demotes the user in the workspace, suspends or removes them,
or takes the platform role that may do everything. -/
def Demotes (init : Database) (workspaceId userId : Uuid) (e : Entry Database Event Request)
    (l : List (Entry Database Event Request)) : Prop :=
  ((stateOf init l).ManageAll userId ∧ ¬ e.db.ManageAll userId) ∨
    ∃ m ∈ (stateOf init l).workspaceMemberships, m.workspaceId = workspaceId ∧
      m.userId = userId ∧ m.status = .active ∧ ¬ e.db.Stands workspaceId userId m.role

instance (init : Database) (workspaceId userId : Uuid) (e : Entry Database Event Request)
    (l : List (Entry Database Event Request)) : Decidable (Demotes init workspaceId userId e l) :=
  inferInstanceAs (Decidable (_ ∨ ∃ m ∈ (stateOf init l).workspaceMemberships, _))

/-- No demotion of the caller committed between the guard of a roster operation and its
commit. -/
def AuthorityUndisturbed (init : Database) (log : List (Entry Database Event Request)) : Prop :=
  EveryEntry (fun e l => ∀ c ∈ e.event.rosterChange?,
    Undisturbed (· = .guarded) (Demotes init c.workspaceId c.actorId) e.agent l) log

instance (init : Database) (log : List (Entry Database Event Request)) :
    Decidable (AuthorityUndisturbed init log) :=
  inferInstanceAs (Decidable (EveryEntry _ log))

theorem Database.Member.stands {role : SeededRoleName} (h : db.Member workspaceId userId role) :
    db.Stands workspaceId userId role := by
  obtain ⟨m, hm, hworkspace, huser, hactive, rfl⟩ := h
  exact ⟨m, hm, hworkspace, huser, hactive, .refl m.role⟩

section Persistence

variable {k : List (Entry Database Event Request)} {d s : Database}

/-- A caller who may do everything still may, when nobody demoted them since the guard. -/
theorem manageAll_persists
    (hkept : Undisturbed (· = .guarded) (Demotes w.init workspaceId userId) a w.log)
    (hk : (⟨a, .guarded, d⟩ :: k) <:+ w.log) (hs : w.Since (k.length + 1) s)
    (hall : s.ManageAll userId) : w.db.ManageAll userId := by
  refine World.persists_since (D := fun db => db.ManageAll userId) (P := (· = .guarded)) hkept hk
    rfl rfl hs hall fun e l hquiet hbefore => ?_
  by_contra hlost
  exact hquiet (.inl ⟨hbefore, hlost⟩)

/-- A member whom nobody demoted since the guard stands as before. -/
theorem stands_persists {role : SeededRoleName}
    (hkept : Undisturbed (· = .guarded) (Demotes w.init workspaceId userId) a w.log)
    (hk : (⟨a, .guarded, d⟩ :: k) <:+ w.log) (hs : w.Since (k.length + 1) s)
    (hmember : s.Member workspaceId userId role) : w.db.Stands workspaceId userId role := by
  refine World.persists_since (D := fun db => db.Stands workspaceId userId role)
    (P := (· = .guarded)) hkept hk rfl rfl hs hmember.stands fun e l hquiet hbefore => ?_
  obtain ⟨m, hm, hworkspace, huser, hactive, hcovers⟩ := hbefore
  have hstands : e.db.Stands workspaceId userId m.role := by
    by_contra hlost
    exact hquiet (.inr ⟨m, hm, hworkspace, huser, hactive, hlost⟩)
  obtain ⟨m', hm', hworkspace', huser', hactive', hcovers'⟩ := hstands
  exact ⟨m', hm', hworkspace', huser', hactive', hcovers'.trans hcovers⟩

end Persistence

/-- The target that a roster operation read is the current one, up to its annotation. -/
theorem RosterWrite.target_role {op : RosterOperation} {target : Option WorkspaceMembership}
    {granted : Option SeededRoleName} {n : ℕ}
    (h : RosterWrite a L w workspaceId actorId n op target granted db') {t m : WorkspaceMembership}
    (ht : t ∈ target) (hm : m ∈ w.db.workspaceMemberships) (hid : m.id = t.id) :
    m.role = t.role := by
  have hsame : ∀ {existing r : WorkspaceMembership}, some existing = some t → existing.Like r →
      r ∈ w.db.workspaceMemberships → m.role = t.role := by
    intro existing r heq hlike hr
    obtain rfl := Option.some_inj.mp heq
    have hrow : m = r := Table.eq_of_key hm hr (hid.trans hlike.id_eq.symm)
    rw [hrow, hlike.role]
  cases h with
  | add | createInvitation => cases ht
  | changeRole _ _ _ hlike hmem => exact hsame ht hlike hmem
  | reactivate _ _ hlike hmem => exact hsame ht hlike hmem
  | leave _ _ _ _ _ _ _ hlike _ hmem => exact hsame ht hlike hmem
  | transferOwnership _ _ _ hlike _ hmem => exact hsame ht hlike hmem

/-- The step: a roster operation whose caller was not demoted since the guard has the authority
for it. -/
theorem Commit.mayOperate {op : RosterOperation} {target : Option WorkspaceMembership}
    {granted : Option SeededRoleName}
    (h : Commit a L w (.rosterChanged op workspaceId actorId target granted) db')
    (hone : w.db.OneMembership)
    (hkept : Undisturbed (· = .guarded) (Demotes w.init workspaceId actorId) a w.log) :
    w.db.MayOperate op workspaceId actorId target granted := by
  cases h with
  | rosterChanged _ _ _ _ _ k d _ _ _ hguard hauthorized hwrite =>
    have hread : w.Since (k.length + 1) d := ⟨_, hguard, by simp, rfl⟩
    obtain ⟨hpermits, hrank, -⟩ := hauthorized
    rcases hpermits with hall | ⟨-, role, hmember, hlisted⟩
    · exact .inl (manageAll_persists hkept hguard hread hall)
    rcases hrank with hall | ⟨s, hs, role', hmember', htarget, hgranted⟩
    · exact .inl (manageAll_persists hkept hguard hread hall)
    -- the permission and the rank rest on one row, which reaches as far as both roles did
    obtain ⟨own, hown, hworkspace, huser, hactive, hcovers⟩ :=
      stands_persists hkept hguard hread hmember
    obtain ⟨own', hown', hworkspace', huser', -, hcovers'⟩ :=
      stands_persists hkept hguard hs hmember'
    obtain rfl : own = own' := hone own hown own' hown' (hworkspace.trans hworkspace'.symm)
      (huser.trans huser'.symm)
    refine .inr ⟨own, hown, hworkspace, huser, hactive, hcovers.2 _ hlisted, ?_, ?_, ?_⟩
    · intro t ht m hm hid
      have hreached : t.role.rank ≤ own.role.rank := (htarget t ht).trans hcovers'.1
      rwa [hwrite.target_role ht hm hid]
    · intro r hr
      exact (hgranted r hr).trans hcovers'.1
    · rintro rfl
      exact owner_of_transfer (hcovers.2 _ hlisted)

/-! ### Every run -/

variable {env : Env} {Allowed : Request → Prop} {init : Database} {σ : SystemConfig}

/-- Ann changes the role of Bob and then hands the workspace over. -/
def changeThenTransfer : List (Order Request) :=
  [.serve 1 (.changeRole "ann" "acme" "bob-m" (some .workspaceAdmin)), .proceed 1, .proceed 1,
    .serve 2 (.transferOwnership "ann" "acme" "bob-m"), .proceed 2, .proceed 2]

/-- Two administrators suspend each other at once. -/
def suspendEachOther : List (Order Request) :=
  [.serve 1 (.transition .suspend "ann" "acme" "bob-m"), .proceed 1, .statements 1 2,
    .serve 2 (.transition .suspend "bob" "acme" "ann-m"), .proceed 2, .proceed 2, .proceed 1]

end NestApi
