import NestApi.Db.LockDiscipline

/-!
# Deadlock

An insert that references the row of an account that its transaction did not lock waits for
that row after the row of a workspace, out of the documented order. Where no insert waits so,
the wait-for graph has no cycle: whoever waits for an account holds nothing, whoever waits for
a workspace holds accounts and smaller workspaces, and child rows are guarded by their parents.
-/

namespace NestApi

open Txn

/-- An insert waits for an account that it references. -/
def AwaitsReference (σ : LockState Transaction) (i : ℕ) : Prop :=
  (∃ t ∈ σ[i]?, ∃ userId, t.next? LockPlan.of = some ⟨.user userId, .keyShare⟩) ∧
    ∃ j, WaitsFor LockPlan.of σ i j

/-- How far a transaction is that waits for a row. -/
def LockedRow.waitPlace (held : List (LockRequest LockedRow)) : LockedRow → ℕ ×ₗ String
  | .user userId => toLex (0, userId)
  | .workspace workspaceId => toLex (1, workspaceId)
  | .workspaceInvitation _ _ => if held = [] then toLex (2, "") else toLex (3, "")
  | _ => toLex (4, "")

def waitPlace (σ : LockState Transaction) (i : ℕ) : ℕ ×ₗ String :=
  (σ[i]?.bind fun t => (t.next? LockPlan.of).map fun r =>
    r.row.waitPlace (t.held LockPlan.of)).getD (toLex (0, ""))

variable {σ : LockState Transaction} {i j k : ℕ} {t u : LockTxn Transaction}
  {r s : LockRequest LockedRow}

theorem guarded_next (hr : t.next? LockPlan.of = some r) : ParentFirst (t.held LockPlan.of) r :=
  LockTxn.of_next? ((LockPlan.disciplined t.kind).imp fun _ _ h => h.1) hr

theorem guarded_held (hs : s ∈ t.held LockPlan.of) :
    ∃ before, before ++ [s] <+: t.held LockPlan.of ∧ ParentFirst before s :=
  LockTxn.of_mem_held ((LockPlan.disciplined t.kind).imp fun _ _ h => h.1) hs

/-- Nobody waits for a row that is locked for the transaction itself. -/
theorem not_update_mem_held (hσ : Exclusive LockPlan.of σ) (ht : σ[i]? = some t)
    (hr : t.next? LockPlan.of = some r) (hwait : WaitsFor LockPlan.of σ i j) :
    ⟨r.row, .update⟩ ∉ t.held LockPlan.of := by
  intro hown
  obtain ⟨hne, t', ht', r', hr', u, hu, s, hs, hconflict⟩ := hwait
  obtain rfl : t = t' := Option.some_inj.mp (ht.symm.trans ht')
  obtain rfl : r = r' := Option.some_inj.mp (hr.symm.trans hr')
  exact hσ.ne_row ht hu hne hown hs hconflict.1.symm

/-- Whoever waits for an account holds nothing, references apart. -/
theorem held_eq_nil_of_awaits_user (hσ : Exclusive LockPlan.of σ)
    (hfree : ¬ AwaitsReference σ i) (ht : σ[i]? = some t) {userId : Uuid}
    (hr : t.next? LockPlan.of = some r) (hrow : r.row = .user userId)
    (hwait : WaitsFor LockPlan.of σ i j) : t.held LockPlan.of = [] := by
  obtain ⟨row, mode⟩ := r
  obtain rfl : row = .user userId := hrow
  obtain hnil | hown | hmode := guarded_next hr
  · exact hnil
  · exact absurd hown (not_update_mem_held hσ ht hr hwait)
  · obtain rfl : mode = .keyShare := hmode
    exact absurd ⟨⟨t, ht, userId, hr⟩, j, hwait⟩ hfree

/-- Whoever waits for a workspace holds accounts and smaller workspaces. -/
theorem held_of_awaits_workspace (hσ : Exclusive LockPlan.of σ) (ht : σ[i]? = some t)
    {workspaceId : Uuid} (hr : t.next? LockPlan.of = some r) (hrow : r.row = .workspace workspaceId)
    (hwait : WaitsFor LockPlan.of σ i j) (hs : s ∈ t.held LockPlan.of) :
    (∃ userId, s.row = .user userId) ∨ ∃ id < workspaceId, s.row = .workspace id := by
  obtain ⟨row, mode⟩ := r
  obtain rfl : row = .workspace workspaceId := hrow
  obtain hown | hbefore := guarded_next hr
  · exact absurd hown (not_update_mem_held hσ ht hr hwait)
  · exact hbefore s hs

/-- A child row is locked under its parent, which nobody else has. -/
theorem not_waitsFor_guarded (hσ : Exclusive LockPlan.of σ) (ht : σ[i]? = some t)
    (hu : σ[j]? = some u) (hij : i ≠ j) {parent : LockedRow}
    (hparent : ⟨parent, .update⟩ ∈ t.held LockPlan.of)
    {before : List (LockRequest LockedRow)} (hbefore : before ++ [s] <+: u.held LockPlan.of)
    (hparent' : ⟨parent, .update⟩ ∈ before) : False :=
  hij (hσ.eq_of_update ht hu hparent (hbefore.subset (List.mem_append_left _ hparent')))

theorem waitPlace_eq (ht : σ[i]? = some t) (hr : t.next? LockPlan.of = some r) :
    waitPlace σ i = r.row.waitPlace (t.held LockPlan.of) := by
  simp [waitPlace, ht, hr]

/-- Whoever locked an invitation without its workspace makes no other request. -/
theorem next?_eq_none_of_invitation {workspaceId id : Uuid}
    (hs : [s] <+: u.held LockPlan.of) (hrow : s.row = .workspaceInvitation workspaceId id) :
    u.next? LockPlan.of = none := by
  unfold LockTxn.next? LockTxn.held at *
  split at hs
  · next hlive =>
    rw [if_pos hlive]
    have hplan : [s] <+: LockPlan.of u.kind := hs.trans (List.take_prefix _ _)
    obtain ⟨rest, hrest⟩ := hplan
    obtain rfl := LockPlan.eq_nil_of_head hrest.symm hrow
    have hgranted : 1 ≤ u.granted := by
      have hlength := hs.length_le
      rw [List.length_take] at hlength
      exact hlength.trans (Nat.min_le_left _ _)
    rw [← hrest]
    exact List.getElem?_eq_none hgranted
  · exact absurd (List.eq_nil_of_prefix_nil hs) (by simp)

/-- A workspace comes after every account. -/
theorem lt_waitPlace_of_ne_user {held : List (LockRequest LockedRow)} {row : LockedRow}
    {x : String} (huser : ∀ userId, row ≠ .user userId) :
    toLex (0, x) < row.waitPlace held := by
  rw [Prod.Lex.lt_iff]
  left
  cases row with
  | user userId => exact absurd rfl (huser userId)
  | workspaceInvitation workspaceId id =>
    simp only [LockedRow.waitPlace]
    split <;> simp
  | _ => simp [LockedRow.waitPlace]

/-- Every child row comes after the workspaces. -/
theorem lt_waitPlace_of_child {held : List (LockRequest LockedRow)} {row : LockedRow}
    {x : String} (huser : ∀ userId, row ≠ .user userId) (hworkspace : ∀ id, row ≠ .workspace id) :
    toLex (1, x) < row.waitPlace held := by
  rw [Prod.Lex.lt_iff]
  left
  cases row with
  | user userId => exact absurd rfl (huser userId)
  | workspace id => exact absurd rfl (hworkspace id)
  | workspaceInvitation workspaceId id =>
    simp only [LockedRow.waitPlace]
    split <;> simp
  | _ => simp [LockedRow.waitPlace]

/-- Waiting after a first row comes after waiting for an invitation as the first row. -/
theorem lt_waitPlace_of_held {held : List (LockRequest LockedRow)} {row : LockedRow}
    (hheld : held ≠ []) (huser : ∀ userId, row ≠ .user userId)
    (hworkspace : ∀ id, row ≠ .workspace id) : toLex (2, "") < row.waitPlace held := by
  rw [Prod.Lex.lt_iff]
  left
  cases row with
  | user userId => exact absurd rfl (huser userId)
  | workspace id => exact absurd rfl (hworkspace id)
  | _ => simp [LockedRow.waitPlace, hheld]

/-- One step of waiting after the other. -/
theorem waitPlace_lt (hσ : Exclusive LockPlan.of σ) (hfree : ∀ i, ¬ AwaitsReference σ i)
    (hij : WaitsFor LockPlan.of σ i j) (hjk : WaitsFor LockPlan.of σ j k) :
    waitPlace σ i < waitPlace σ j := by
  obtain ⟨hne, t, ht, ⟨row, mode⟩, hr, u, hu, s, hs, hrow, hmode⟩ := hij
  obtain ⟨-, u', hu', q, hq, -⟩ := id hjk
  obtain rfl : u = u' := Option.some_inj.mp (hu.symm.trans hu')
  obtain ⟨before, hbefore, hguarded⟩ := guarded_held hs
  obtain ⟨srow, smode⟩ := s
  obtain rfl : row = srow := hrow
  have hnext := guarded_next hr
  have hsome : u.held LockPlan.of ≠ [] := List.ne_nil_of_mem hs
  rw [waitPlace_eq ht hr, waitPlace_eq hu hq]
  -- the second one holds a row, so it does not wait for an account
  have huser : ∀ userId, q.row ≠ .user userId := fun userId h =>
    hsome (held_eq_nil_of_awaits_user hσ (hfree j) hu hq h hjk)
  cases row with
  | user userId => exact lt_waitPlace_of_ne_user huser
  | workspace workspaceId =>
    by_cases hworkspace : ∃ id, q.row = .workspace id
    · obtain ⟨id, hid⟩ := hworkspace
      obtain ⟨userId, h⟩ | ⟨id', hlt, h⟩ := held_of_awaits_workspace hσ hu hq hid hjk hs
      · cases h
      · cases h
        rw [hid]
        exact Prod.Lex.toLex_lt_toLex.mpr (.inr ⟨rfl, hlt⟩)
    · exact lt_waitPlace_of_child huser (not_exists.mp hworkspace)
  | workspaceInvitation workspaceId id =>
    have hworkspace : ∀ id, q.row ≠ .workspace id := by
      intro id hid
      obtain ⟨userId, h⟩ | ⟨id', -, h⟩ := held_of_awaits_workspace hσ hu hq hid hjk hs <;> cases h
    obtain hown | hfirst := hnext
    · obtain hown' | rfl := hguarded
      · exact (not_waitsFor_guarded hσ ht hu hne hown hbefore hown').elim
      · rw [next?_eq_none_of_invitation hbefore rfl] at hq
        cases hq
    · have hplace : LockedRow.waitPlace (t.held LockPlan.of) (.workspaceInvitation workspaceId id) =
          toLex (2, "") := if_pos hfirst
      rw [hplace]
      exact lt_waitPlace_of_held hsome huser hworkspace
  | workspaceMembership workspaceId id =>
    exact (not_waitsFor_guarded hσ ht hu hne hnext hbefore hguarded).elim
  | refreshToken userId id => exact (not_waitsFor_guarded hσ ht hu hne hnext hbefore hguarded).elim
  | fileAsset userId id => exact (not_waitsFor_guarded hσ ht hu hne hnext hbefore hguarded).elim
  | role name =>
    -- roles are only referenced
    obtain rfl : mode = .keyShare := hnext
    obtain rfl : smode = .keyShare := hguarded
    cases hmode

/-- Without a wait for a referenced account there is no cycle. -/
theorem not_deadlocked_of_references (hσ : Exclusive LockPlan.of σ)
    (hfree : ∀ i, ¬ AwaitsReference σ i) : ¬ Deadlocked LockPlan.of σ := by
  rintro ⟨i, hcycle⟩
  exact not_transGen_self (fun a b c hab hbc => waitPlace_lt hσ hfree hab hbc) i hcycle

/-- A reference to a row that is locked is not waited for. -/
theorem not_awaitsReference_of_keepsOrder (hσ : Exclusive LockPlan.of σ)
    (hkeeps : ∀ t ∈ σ, t.kind.KeepsOrder) (i : ℕ) : ¬ AwaitsReference σ i := by
  rintro ⟨⟨t, ht, userId, hr⟩, j, hwait⟩
  have hplan : EveryRequest ReferenceHeld [] (LockPlan.of t.kind) :=
    (LockPlan.disciplined t.kind).imp fun _ _ h => (h.2 (hkeeps t (List.mem_of_getElem? ht))).2
  exact not_update_mem_held hσ ht hr hwait (LockTxn.of_next? hplan hr userId rfl)

/-- Transactions acquire their locks in the documented order, without a cycle of waiting, just
if they keep the order; and there is no cycle while nobody waits for a referenced account. -/
theorem not_deadlocked_of_keepsOrder (h : LockReaches LockPlan.of σ) :
    ((∀ t ∈ σ, t.kind.Ordered) ∧ ¬ Deadlocked LockPlan.of σ ↔ ∀ t ∈ σ, t.kind.KeepsOrder) ∧
      ((∀ i, ¬ AwaitsReference σ i) → ¬ Deadlocked LockPlan.of σ) := by
  have hσ := h.exclusive
  refine ⟨⟨fun hordered t ht => t.kind.ordered_iff.mp (hordered.1 t ht), fun hkeeps => ?_⟩,
    not_deadlocked_of_references hσ⟩
  refine ⟨fun t ht => t.kind.ordered_iff.mpr (hkeeps t ht), ?_⟩
  exact not_deadlocked_of_references hσ (not_awaitsReference_of_keepsOrder hσ hkeeps)

/-- Two transactions that keep the order: one has the account, the other waits for it. -/
def suspendedAgain : List (LockAction Transaction) :=
  [.begin (.reactivate "w" "m" "bob"), .begin (.deactivate "bob" ["w"] ["t"]),
    .acquire 0, .acquire 0]

theorem not_deadlocked_suspendedAgain :
    let σ : LockState Transaction :=
      [⟨.reactivate "w" "m" "bob", 2, true⟩, ⟨.deactivate "bob" ["w"] ["t"], 0, true⟩]
    ((∀ t ∈ σ, t.kind.Ordered) ∧ ¬ Deadlocked LockPlan.of σ ↔ ∀ t ∈ σ, t.kind.KeepsOrder) ∧
      ((∀ i, ¬ AwaitsReference σ i) → ¬ Deadlocked LockPlan.of σ) :=
  not_deadlocked_of_keepsOrder (lockReaches_of_run suspendedAgain .refl (by rfl))

/-! ### A cycle -/

/-- `ann` adds `bob` to the workspace she owns, and deactivates her account meanwhile. -/
def addedWhileDeactivating : List (LockAction Transaction) :=
  [.begin (.addMembership "w" "m" "bob" "ann" .workspaceManager false),
    .begin (.deactivate "ann" ["w"] []),
    .acquire 0, .acquire 0, .acquire 0, .acquire 0, .acquire 0, .acquire 0, .acquire 1]

/-- The first waits for the account that its new row references, the second for the workspace. -/
theorem deadlocked_addedWhileDeactivating :
    let σ : LockState Transaction :=
      [⟨.addMembership "w" "m" "bob" "ann" .workspaceManager false, 6, true⟩,
        ⟨.deactivate "ann" ["w"] [], 1, true⟩]
    LockReaches LockPlan.of σ ∧ Deadlocked LockPlan.of σ := by
  constructor
  · exact lockReaches_of_run addedWhileDeactivating .refl (by rfl)
  · have hadd : WaitsFor LockPlan.of ([⟨.addMembership "w" "m" "bob" "ann" .workspaceManager false,
        6, true⟩, ⟨.deactivate "ann" ["w"] [], 1, true⟩] : LockState Transaction) 0 1 := by decide
    have hdeactivate : WaitsFor LockPlan.of ([⟨.addMembership "w" "m" "bob" "ann" .workspaceManager
        false, 6, true⟩, ⟨.deactivate "ann" ["w"] [], 1, true⟩] : LockState Transaction) 1 0 := by
      decide
    exact ⟨0, .tail (.single hadd) hdeactivate⟩

end NestApi
