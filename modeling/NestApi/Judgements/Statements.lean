import NestApi.Protocol.Stability

/-!
# Judging the shared statements

One rule for each statement that several services use, in the form of the rules for
single statements: what is known afterwards, and which locks are held.
-/

namespace NestApi

open Txn Program

variable {α β : Type} {a : Agent Request} {c : Ctx Database RowLock} {w w' : SystemWorld}
  {Q : Except Failure β → Ctx Database RowLock → SystemWorld → Prop} {userId : Uuid}

/-- A postcondition that asks nothing of a failure. -/
def Lenient (Q : Except Failure β → Ctx Database RowLock → SystemWorld → Prop) : Prop :=
  ∀ e c w, Q (.error e) c w

theorem lenient_true :
    Lenient (fun (_ : Except Failure β) (_ : Ctx Database RowLock) (_ : SystemWorld) => True) :=
  fun _ _ _ => trivial

theorem Lenient.andThen {k : α → Handler β} (h : Lenient Q) :
    Lenient (andThen guarantee a k Q) := h

theorem Lenient.atEnd {ev : β → Event} (h : Lenient Q) : Lenient (atEnd guarantee a ev Q) :=
  fun e _ _ _ _ => h e _ _

/-- The answer of a handler does not matter. -/
theorem wp_discard {x : Handler α} (h : wp guarantee a x (fun _ _ _ => True) c w) :
    wp guarantee a (discard x) (fun _ _ _ => True) c w :=
  wp_bind (wp_mono (fun r _ _ _ => by cases r <;> trivial) h)

/-- A transaction with what follows it. -/
theorem wp_transaction_bind {x : Handler α} {ev : α → Event} {k : α → Handler β}
    (h : wp guarantee a x (atEnd guarantee a ev (andThen guarantee a k Q)) c w) :
    wp guarantee a (transaction x ev >>= k) Q c w :=
  wp_bind (wp_transaction h)

/-- A new identifier belongs to the process. -/
theorem wp_drawId {k : Uuid → Handler β} (hinv : Inv w)
    (h : ∀ (w' : SystemWorld) (x : Uuid), Interf guarantee a c.held w w' → Drawn a w' x →
      wp guarantee a (k x) Q c w') :
    wp guarantee a (freshId >>= k) Q c w :=
  wp_freshId fun w₁ hw₁ x hx => h (w₁.issue x a.pid) x (hw₁.draw hx) (.issue (hw₁.inv hinv) hx)

/-! ### Locks -/

theorem wp_lockUserRow {k : Unit → Handler β}
    (h : ∀ w', Interf guarantee a c.held w w' → wp guarantee a (k ()) Q
      { c with held := fun l => l = .user userId ∨ c.held l } w') :
    wp guarantee a (lockUserRow userId >>= k) Q c w := wp_lockRow h

theorem wp_lockWorkspaceRow {workspaceId : Uuid} {k : Unit → Handler β}
    (h : ∀ w', Interf guarantee a c.held w w' → wp guarantee a (k ()) Q
      { c with held := fun l => l = .workspace workspaceId ∨ c.held l } w') :
    wp guarantee a (lockWorkspaceRow workspaceId >>= k) Q c w := wp_lockRow h

theorem wp_lockRefreshTokenFamily {familyId : Uuid} {k : Unit → Handler β}
    (h : ∀ (w' : SystemWorld) (ls : List RowLock), Interf guarantee a c.held w w' →
      wp guarantee a (k ()) Q { c with held := fun l => l ∈ ls ∨ c.held l } w') :
    wp guarantee a (lockRefreshTokenFamily familyId >>= k) Q c w := by
  unfold lockRefreshTokenFamily
  rw [bind_assoc]
  refine wp_select fun w₁ hw₁ => wp_lockRows fun w₂ hw₂ => ?_
  exact h w₂ _ (hw₁.trans hw₂)

/-! ### Updates -/

/-- An update of tokens writes the rows that matched both when the statement started and
under the locks. -/
theorem wp_updateManyTokens {p : RefreshToken → Bool} {f : Rewrite RefreshToken.id}
    {k : List Uuid → Handler β}
    (h : ∀ (w₁ w₂ w₃ : SystemWorld) (found ids : List Uuid),
      Interf guarantee a c.held w w₁ → Interf guarantee a c.held w₁ w₂ →
      Interf guarantee a (fun l => l ∈ found.map RowLock.refreshToken ∨ c.held l) w₂ w₃ →
      (∀ id, id ∈ found ↔ ∃ t ∈ (c.pend w₁.db).refreshTokens, p t = true ∧ t.id = id) →
      (∀ id, id ∈ ids ↔ ∃ t ∈ (c.pend w₂.db).refreshTokens,
        p t = true ∧ t.id ∈ found ∧ t.id = id) → ids.Nodup →
      wp guarantee a (k ids) Q
        ⟨fun l => l ∈ found.map RowLock.refreshToken ∨ c.held l,
          fun db => (c.pend db).updateTokens ids f⟩ w₃) :
    wp guarantee a (updateManyTokens p f >>= k) Q c w := by
  unfold updateManyTokens
  simp only [bind_assoc, pure_bind]
  refine wp_select fun w₁ hw₁ => wp_lockRows fun w₂ hw₂ => wp_select fun w₃ hw₃ =>
    wp_modify fun w₄ hw₄ => ?_
  refine h w₁ w₃ w₄ _ _ hw₁ (hw₂.trans (hw₃.mono fun l hl => .inr hl)) hw₄ (fun id => ?_)
    (fun id => ?_) (Table.nodup_filter _ _)
  · simp only [List.mem_map, Table.mem_filter, and_assoc]
  · simp only [List.mem_map, Table.mem_filter, Bool.and_eq_true, decide_eq_true_eq, and_assoc]

/-- An update of invitations, in the same way. The second read is under the locks. -/
theorem wp_updateManyInvitations {p : WorkspaceInvitation → Bool}
    {f : Rewrite WorkspaceInvitation.id} {k : List Uuid → Handler β}
    (h : ∀ (w₁ w₂ w₃ : SystemWorld) (found ids : List Uuid),
      Interf guarantee a c.held w w₁ → Interf guarantee a c.held w₁ w₂ →
      Interf guarantee a (fun l => l ∈ found.map RowLock.workspaceInvitation ∨ c.held l) w₂ w₃ →
      (∀ id, id ∈ found ↔ ∃ i ∈ (c.pend w₁.db).workspaceInvitations, p i = true ∧ i.id = id) →
      (∀ id, id ∈ ids ↔ ∃ i ∈ (c.pend w₂.db).workspaceInvitations,
        p i = true ∧ i.id ∈ found ∧ i.id = id) →
      wp guarantee a (k ids) Q
        ⟨fun l => l ∈ found.map RowLock.workspaceInvitation ∨ c.held l,
          fun db => (c.pend db).updateInvitations ids f⟩ w₃) :
    wp guarantee a (updateManyInvitations p f >>= k) Q c w := by
  unfold updateManyInvitations
  simp only [bind_assoc, pure_bind]
  refine wp_select fun w₁ hw₁ => wp_lockRows fun w₂ hw₂ => wp_select fun w₃ hw₃ =>
    wp_modify fun w₄ hw₄ => ?_
  refine h w₁ w₃ w₄ _ _ hw₁ (hw₂.trans (hw₃.mono fun l hl => .inr hl)) hw₄ (fun id => ?_)
    fun id => ?_
  · simp only [List.mem_map, Table.mem_filter, and_assoc]
  · simp only [List.mem_map, Table.mem_filter, Bool.and_eq_true, decide_eq_true_eq, and_assoc]

/-- A row that an update wrote still matches: it is locked. -/
theorem matches_of_locked {p : WorkspaceInvitation → Bool} {held : RowLock → Prop}
    {w₂ w₃ : SystemWorld} {found ids : List Uuid} (hinv : Inv w₂)
    (hw₃ : Interf guarantee a
      (fun l => l ∈ found.map RowLock.workspaceInvitation ∨ held l) w₂ w₃)
    (hids : ∀ id, id ∈ ids ↔ ∃ i ∈ w₂.db.workspaceInvitations,
      p i = true ∧ i.id ∈ found ∧ i.id = id) {id : Uuid} (hid : id ∈ ids) :
    ∃ i ∈ w₃.db.workspaceInvitations, i.id = id ∧ p i = true := by
  obtain ⟨i, hi, hmatch, hfound, rfl⟩ := (hids id).mp hid
  exact ⟨i, hw₃.invitation hinv (.inl (List.mem_map_of_mem hfound)) hi, rfl, hmatch⟩

/-- Under the lock of the workspace, an update of its invitations writes all that match. -/
theorem mem_ids_iff_matches {workspaceId : Uuid} {p : WorkspaceInvitation → Bool}
    {held : RowLock → Prop} {w₁ w₂ w₃ : SystemWorld} {found ids : List Uuid} (hinv : Inv w₁)
    (hlock : held (.workspace workspaceId)) (hw₂ : Interf guarantee a held w₁ w₂)
    (hw₃ : Interf guarantee a
      (fun l => l ∈ found.map RowLock.workspaceInvitation ∨ held l) w₂ w₃)
    (hp : ∀ i i' : WorkspaceInvitation, i.Evolves i' → p i' = true → p i = true)
    (hworkspace : ∀ i, p i = true → i.workspaceId = workspaceId)
    (hfound : ∀ id, id ∈ found ↔ ∃ i ∈ w₁.db.workspaceInvitations, p i = true ∧ i.id = id)
    (hids : ∀ id, id ∈ ids ↔ ∃ i ∈ w₂.db.workspaceInvitations,
      p i = true ∧ i.id ∈ found ∧ i.id = id) {i : WorkspaceInvitation}
    (hi : i ∈ w₃.db.workspaceInvitations) : i.id ∈ ids ↔ p i = true := by
  constructor
  · intro hid
    obtain ⟨i', hi', hsame, hmatch⟩ := matches_of_locked (hw₂.inv hinv) hw₃ hids hid
    rwa [← Table.eq_of_key hi' hi hsame]
  · intro hmatch
    obtain ⟨i₂, hi₂, hevolves₂⟩ := hw₃.invitationOf (hw₂.inv hinv) (.inr hlock) hi
      (hworkspace i hmatch)
    have hmatch₂ := hp i₂ i hevolves₂ hmatch
    obtain ⟨i₁, hi₁, hevolves₁⟩ := hw₂.invitationOf hinv hlock hi₂ (hworkspace i₂ hmatch₂)
    have hmatch₁ := hp i₁ i₂ hevolves₁ hmatch₂
    have hin : i₂.id ∈ found := (hfound i₂.id).mpr ⟨i₁, hi₁, hmatch₁, hevolves₁.id_eq.symm⟩
    exact (hids i.id).mpr ⟨i₂, hi₂, hmatch₂, hin, hevolves₂.id_eq.symm⟩

/-- An update of an account locks it and finds its row. -/
theorem wp_updateUserRow {f : Rewrite User.id} {k : User → Handler β}
    (hQ : ∀ c w, Q (.error .internal) c w)
    (h : ∀ (w' : SystemWorld) (user : User), Interf guarantee a c.held w w' →
      user.id = userId → wp guarantee a (k (f.row user)) Q
        ⟨fun l => l = .user userId ∨ c.held l,
          fun db => (c.pend db).updateUser userId f⟩ w') :
    wp guarantee a (updateUserRow userId f >>= k) Q c w := by
  unfold updateUserRow
  simp only [bind_assoc, pure_bind]
  refine wp_lockUserRow fun w₁ hw₁ => wp_select fun w₂ hw₂ => wp_orThrow (fun user huser => ?_)
    fun _ => hQ _ _
  refine wp_modify fun w₃ hw₃ => ?_
  exact h w₃ user ((hw₁.trans (hw₂.mono fun l hl => .inr hl)).trans
    (hw₃.mono fun l hl => .inr hl)) (Table.key_of_find? huser)

end NestApi
