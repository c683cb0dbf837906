import NestApi.Judgements.Sessions

/-!
# Judging the ownership policy

What each check of the policy establishes under the locks it runs under: the account is
usable, the workspace keeps an owner, every workspace of the account keeps one.
-/

namespace NestApi

open Txn Program WorkspaceOwnershipPolicy

variable {β : Type} {a : Agent Request} {c : Ctx Database RowLock} {w w' : SystemWorld}
  {Q : Except Failure β → Ctx Database RowLock → SystemWorld → Prop} {userId workspaceId : Uuid}
  {db : Database}

/-! ### What the queries answer -/

theorem mem_remainingOwners {membershipId : Uuid} {m : WorkspaceMembership} :
    m ∈ remainingOwners db workspaceId membershipId ↔
      db.EffectiveOwner workspaceId m ∧ m.id ≠ membershipId := by
  simp only [remainingOwners, Table.mem_filter, Bool.and_eq_true, decide_eq_true_eq,
    Database.isUsable_iff, Database.EffectiveOwner]
  tauto

theorem hasCoOwner_iff :
    hasCoOwner db userId workspaceId = true ↔
      ∃ m, db.EffectiveOwner workspaceId m ∧ m.userId ≠ userId := by
  simp only [hasCoOwner, List.any_eq_true, Bool.and_eq_true, decide_eq_true_eq,
    Database.isUsable_iff, Database.EffectiveOwner, Table.mem_def]
  exact exists_congr fun m => by tauto

theorem mem_ownedLiveWorkspaces :
    workspaceId ∈ (ownedLiveWorkspaces db userId).map Prod.fst ↔
      db.LiveWorkspace workspaceId ∧ db.ActiveOwner workspaceId userId := by
  simp only [ownedLiveWorkspaces, List.mem_map, List.mem_insertionSort, List.mem_filterMap,
    Table.mem_filter, Bool.and_eq_true, decide_eq_true_eq, Option.map_eq_some_iff]
  constructor
  · rintro ⟨-, ⟨m, ⟨hm, huser, howner⟩, ws, hws, rfl⟩, rfl⟩
    obtain ⟨hfind, hlive⟩ := Option.filter_eq_some_iff.mp hws
    obtain ⟨hmem, hid⟩ := Table.find?_eq_some.mp hfind
    exact ⟨⟨ws, hmem, rfl, by simpa using hlive⟩, m, hm, hid.symm, huser, howner⟩
  · rintro ⟨⟨ws, hws, rfl, hlive⟩, m, hm, hworkspace, huser, howner⟩
    refine ⟨_, ⟨m, ⟨hm, huser, howner⟩, ws, ?_, rfl⟩, rfl⟩
    rw [hworkspace]
    exact Option.filter_eq_some_iff.mpr ⟨Table.find?_of_mem hws, by simpa using hlive⟩

/-! ### What the checks establish -/

/-- The gate on an active membership: the account is locked and usable. -/
theorem wp_assertUserMayHoldActiveMembership {k : Unit → Handler β} (hQ : Lenient Q)
    (hpend : c.pend = id)
    (h : ∀ w' : SystemWorld, Interf guarantee a c.held w w' → w'.db.Usable userId →
      wp guarantee a (k ()) Q { c with held := fun l => l = .user userId ∨ c.held l } w') :
    wp guarantee a (assertUserMayHoldActiveMembership userId >>= k) Q c w := by
  unfold assertUserMayHoldActiveMembership
  simp only [bind_assoc]
  refine wp_lockUserRow fun w₁ hw₁ => wp_select fun w₂ hw₂ => wp_ensure (fun husable => ?_)
    fun _ => hQ _ _ _
  rw [hpend] at husable
  exact h w₂ (hw₁.trans (hw₂.mono fun l hl => .inr hl)) (Database.isUsable_iff.mp husable)

/-- Where the membership counts, the workspace keeps an owner without it. -/
theorem wp_assertAnotherActiveOwnerExists {p : Prop} [Decidable p] {membershipId : Uuid}
    {k : Unit → Handler β} (hQ : Lenient Q) (hpend : c.pend = id)
    (h : ∀ w' : SystemWorld, Interf guarantee a c.held w w' →
      (p → OwnedBy (fun other => other.id ≠ membershipId) w' workspaceId) →
        wp guarantee a (k ()) Q c w') :
    wp guarantee a
      (onlyIf p (assertAnotherActiveOwnerExists workspaceId membershipId) >>= k) Q c w := by
  refine wp_onlyIf (fun _ => ?_) fun hp => h w .refl fun hpos => absurd hpos hp
  unfold assertAnotherActiveOwnerExists
  simp only [bind_assoc]
  refine wp_select fun w₁ hw₁ => wp_ensure (fun hcount => ?_) fun _ => hQ _ _ _
  rw [hpend] at hcount
  obtain ⟨m, hm⟩ := List.exists_mem_of_length_pos (Nat.pos_of_ne_zero hcount)
  exact h w₁ hw₁ fun _ => .inr (.inr ⟨m, mem_remainingOwners.mp hm⟩)

/-- Every live workspace the user owns is locked, and it keeps an owner unless it is
answered as solely owned. The lock on the user makes the first read final. -/
theorem wp_findSolelyOwnedLiveWorkspaces {k : List (Uuid × String) → Handler β} (hinv : Inv w)
    (hlock : c.held (.user userId)) (hpend : c.pend = id)
    (h : ∀ (w' : SystemWorld) (ls : List RowLock) (blocking : List (Uuid × String)),
      Interf guarantee a c.held w w' →
        LeavesService (fun l => l ∈ ls ∨ c.held l) w' userId (blocking.map Prod.fst) →
        (∀ id ∈ blocking.map Prod.fst, RowLock.workspace id ∈ ls) →
          wp guarantee a (k blocking) Q { c with held := fun l => l ∈ ls ∨ c.held l } w') :
    wp guarantee a (findSolelyOwnedLiveWorkspaces userId >>= k) Q c w := by
  unfold findSolelyOwnedLiveWorkspaces lockWorkspaceRows
  simp only [bind_assoc, pure_bind]
  have hread : ∀ db, c.pend db = db := fun db => by rw [hpend, id_eq]
  refine wp_select fun w₁ hw₁ => wp_lockRows fun w₂ hw₂ => wp_select fun w₃ hw₃ => ?_
  simp only [hread]
  have hw₁₃ := hw₂.trans (hw₃.mono fun l hl => .inr hl)
  have hlocked : ∀ id ∈ (ownedLiveWorkspaces w₁.db userId).map Prod.fst,
      RowLock.workspace id ∈
        (sortedUnique ((ownedLiveWorkspaces w₁.db userId).map Prod.fst)).map .workspace :=
    fun id hid => List.mem_map_of_mem (mem_sortedUnique.mpr hid)
  refine h w₃ _ _ (hw₁.trans hw₁₃) (fun id hlive howner => ?_) fun id hid => ?_
  · have howned := mem_ownedLiveWorkspaces.mpr
      (hw₁₃.owned (hw₁.inv hinv) hlock ⟨hlive, howner⟩)
    refine ⟨.inl (hlocked id howned), ?_⟩
    by_cases hco : hasCoOwner w₃.db userId id = true
    · exact .inr (.inr (.inr (hasCoOwner_iff.mp hco)))
    · obtain ⟨workspace, hmem, rfl⟩ := List.mem_map.mp howned
      refine .inl (List.mem_map_of_mem (List.mem_filter.mpr ⟨hmem, ?_⟩))
      simp [hco]
  · obtain ⟨workspace, hmem, rfl⟩ := List.mem_map.mp hid
    exact hlocked _ (List.mem_map_of_mem (List.mem_filter.mp hmem).1)

/-- Leaving service strands no workspace. -/
theorem wp_assertUserIsNotASoleOwner {k : Unit → Handler β} (hQ : Lenient Q) (hinv : Inv w)
    (hlock : c.held (.user userId)) (hpend : c.pend = id)
    (h : ∀ (w' : SystemWorld) (ls : List RowLock), Interf guarantee a c.held w w' →
      LeavesService (fun l => l ∈ ls ∨ c.held l) w' userId [] →
        wp guarantee a (k ()) Q { c with held := fun l => l ∈ ls ∨ c.held l } w') :
    wp guarantee a (assertUserIsNotASoleOwner userId >>= k) Q c w := by
  unfold assertUserIsNotASoleOwner
  simp only [bind_assoc]
  refine wp_findSolelyOwnedLiveWorkspaces hinv hlock hpend fun w₁ ls blocking hw₁ hleaves _ =>
    wp_ensure (fun hnone => ?_) fun _ => hQ _ _ _
  subst hnone
  exact h w₁ ls hw₁ hleaves

/-- Erasure closes what nobody else owns. -/
theorem wp_closeSolelyOwnedWorkspaces {actorId : Uuid} {k : List (Uuid × String) → Handler β}
    (hinv : Inv w) (hlock : c.held (.user userId)) (hpend : c.pend = id)
    (h : ∀ (w' : SystemWorld) (ls : List RowLock) (blocking : List (Uuid × String))
      (closedAt : ℕ), Interf guarantee a c.held w w' →
        LeavesService (fun l => l ∈ ls ∨ c.held l) w' userId (blocking.map Prod.fst) →
        (∀ id ∈ blocking.map Prod.fst, RowLock.workspace id ∈ ls) →
          wp guarantee a (k blocking) Q
            ⟨fun l => l ∈ ls ∨ c.held l, fun db => db.updateWorkspaces (blocking.map Prod.fst)
              (Workspace.deleted closedAt actorId)⟩ w') :
    wp guarantee a (closeSolelyOwnedWorkspaces userId actorId >>= k) Q c w := by
  unfold closeSolelyOwnedWorkspaces
  simp only [bind_assoc, pure_bind]
  refine wp_findSolelyOwnedLiveWorkspaces hinv hlock hpend
    fun w₁ ls blocking hw₁ hleaves hlocked => wp_onlyIf (fun _ => ?_) fun hnone => ?_
  · simp only [bind_assoc]
    refine wp_now fun w₂ hw₂ => wp_modify fun w₃ hw₃ => ?_
    have hw₁₃ := hw₂.trans hw₃
    rw [hpend]
    exact h w₃ ls blocking w₂.now (hw₁.trans (hw₁₃.mono fun l hl => .inr hl))
      (hleaves.stable hw₁₃ (hw₁.inv hinv) (.inr hlock)) hlocked
  · simp only [ne_eq, not_not] at hnone
    subst hnone
    have hnothing := h w₁ ls [] 0 hw₁ hleaves hlocked
    simp only [List.map_nil, Database.updateWorkspaces_nil] at hnothing
    rw [hpend]
    exact hnothing

end NestApi
