import NestApi.Accounts.Guarantee

/-!
# The invariant of the account system

What a step does to one account is said once: nothing, a justified write, or its creation. With
it every step keeps the invariant, a row stays as it is under its lock, and a drawn name stays
that of its process.
-/

namespace NestApi

open Txn Accounts McpOAuth

variable {env : AccountEnv} {a : Agent AccountRequest} {L held : RowLock → Prop}
  {w w' : AccountWorld} {ev : AccountEvent} {s : AccountStore} {userId x : Uuid}
  {u user row : Account} {c : Change}

/-! ### One account -/

/-- What a step did to an account. -/
inductive RowChange (env : AccountEnv) (a : Agent AccountRequest) (L : RowLock → Prop)
    (w : AccountWorld) (ev : AccountEvent) (s : AccountStore) (userId : Uuid) : Prop
  | kept (hrow : s.user? userId = w.db.user? userId)
  | changed (c : Change) (row : Account) (hev : ev = .changed c) (hid : c.userId = userId)
      (hbefore : w.db.user? userId = some row)
      (hafter : s.user? userId = some (c.data.apply row)) (hlock : L (.user userId))
      (hjustified : Justified env a w row c)
  | created (user : Account) (hev : ev = .userCreated userId) (hid : user.id = userId)
      (hbefore : w.db.user? userId = none) (hafter : s.user? userId = some user)
      (hlock : L (.user userId)) (hnew : user.IsNew w.now)

theorem NewName.user?_eq_none (h : NewName a w x) : w.db.user? x = none := by
  refine Table.find?_eq_none.mpr ?_
  intro u hu hid
  exact h.unused (.inl ⟨u, hu, hid⟩)

theorem AccountStep.rowChange (h : AccountStep env a L w ev s) (userId : Uuid) :
    RowChange env a L w ev s userId := by
  cases h with
  | changed c row tokens hrow hlock hjustified =>
    by_cases hid : c.userId = userId
    · subst hid
      exact .changed c row rfl rfl hrow (AccountStore.user?_updateUser hrow) hlock hjustified
    · exact .kept (AccountStore.user?_updateUser_of_ne (Ne.symm hid))
  | userCreated user hname hlock hnew =>
    by_cases hid : user.id = userId
    · subst hid
      have hnone := hname.user?_eq_none
      exact .created user rfl rfl hnone (AccountStore.user?_insertUser hnone) hlock hnew
    · exact .kept (AccountStore.user?_insertUser_of_ne (Ne.symm hid))
  | _ => exact .kept rfl

/-- A commit of a write. -/
theorem AccountStep.of_changed (h : AccountStep env a L w (.changed c) s) :
    ∃ row, w.db.user? c.userId = some row ∧ s.user? c.userId = some (c.data.apply row) ∧
      Justified env a w row c := by
  cases h with
  | changed _ row tokens hrow hlock hjustified =>
    exact ⟨row, hrow, AccountStore.user?_updateUser hrow, hjustified⟩

/-- A row after a step, by the row before it. -/
theorem AccountStep.user?_after (h : AccountStep env a L w ev s)
    (hafter : s.user? userId = some u) :
    w.db.user? userId = some u ∨
      (∃ c row, ev = .changed c ∧ c.userId = userId ∧ w.db.user? userId = some row ∧
        u = c.data.apply row ∧ Justified env a w row c) ∨
          (ev = .userCreated userId ∧ w.db.user? userId = none ∧ u.IsNew w.now) := by
  cases h.rowChange userId with
  | kept hrow => exact .inl (hrow.symm.trans hafter)
  | changed c row hev hid hbefore hafter' hlock hjustified =>
    have hu : c.data.apply row = u := Option.some_inj.mp (hafter'.symm.trans hafter)
    exact .inr (.inl ⟨c, row, hev, hid, hbefore, hu.symm, hjustified⟩)
  | created user hev hid hbefore hafter' hlock hnew =>
    obtain rfl : user = u := Option.some_inj.mp (hafter'.symm.trans hafter)
    exact .inr (.inr ⟨hev, hbefore, hnew⟩)

/-- A row before a step, by the row after it: accounts stay. -/
theorem AccountStep.user?_before (h : AccountStep env a L w ev s)
    (hbefore : w.db.user? userId = some row) :
    s.user? userId = some row ∨
      ∃ c, ev = .changed c ∧ c.userId = userId ∧ s.user? userId = some (c.data.apply row) ∧
        L (.user userId) ∧ Justified env a w row c := by
  cases h.rowChange userId with
  | kept hrow => exact .inl (hrow.trans hbefore)
  | changed c row' hev hid hbefore' hafter hlock hjustified =>
    obtain rfl : row' = row := Option.some_inj.mp (hbefore'.symm.trans hbefore)
    exact .inr ⟨c, hev, hid, hafter, hlock, hjustified⟩
  | created user hev hid hbefore' =>
    rw [hbefore] at hbefore'
    cases hbefore'

/-! ### The payloads of the OAuth server -/

theorem AccountStep.session_kept {session : OAuthSession} (h : AccountStep env a L w ev s)
    (hmem : session ∈ w.db.oauthSessions) : session ∈ s.oauthSessions := by
  cases h with
  | oauthSignedIn => exact Table.mem_insert_of_mem hmem
  | _ => exact hmem

theorem AccountStep.session_of {session : OAuthSession} (h : AccountStep env a L w ev s)
    (hmem : session ∈ s.oauthSessions) :
    session ∈ w.db.oauthSessions ∨
      ev = .oauthSignedIn session ∧
        w.issued.find? session.uid = some (session.uid, some a.pid) := by
  cases h with
  | oauthSignedIn new hname =>
    rcases Table.mem_of_mem_insert hmem with hold | rfl
    · exact .inl hold
    · exact .inr ⟨rfl, hname.issued⟩
  | _ => exact .inl hmem

theorem AccountStep.credential_of {code : OAuthCredential} (h : AccountStep env a L w ev s)
    (hmem : code ∈ s.oauthCredentials) :
    code ∈ w.db.oauthCredentials ∨ ∃ session ∈ w.db.oauthSessions, session.Grants code := by
  cases h with
  | oauthCodeIssued new hsession =>
    rcases Table.mem_of_mem_insert hmem with hold | rfl
    · exact .inl hold
    · exact .inr hsession
  | _ => exact .inl hmem

theorem AccountStep.accessToken_kept {token : OAuthAccessToken} (h : AccountStep env a L w ev s)
    (hmem : token ∈ w.db.oauthAccessTokens) : token ∈ s.oauthAccessTokens := by
  cases h with
  | accessTokenIssued => exact Table.mem_insert_of_mem hmem
  | _ => exact hmem

/-! ### Names -/

/-- A name that is there was there before, or is that of its process. -/
theorem AccountStep.names (h : AccountStep env a L w ev s) (hx : s.Names x) :
    w.db.Names x ∨ w.issued.find? x = some (x, some a.pid) := by
  rcases hx with ⟨u, hu, rfl⟩ | ⟨session, hsession, rfl⟩
  · have hafter : s.user? u.id = some u := AccountStore.user?_eq_some.mpr ⟨hu, rfl⟩
    cases h with
    | userCreated user hname hlock hnew =>
      rcases Table.mem_of_mem_insert hu with hold | rfl
      · exact .inl (.inl ⟨u, hold, rfl⟩)
      · exact .inr hname.issued
    | changed c row tokens hrow hlock hjustified =>
      rcases Table.of_mem_update hu with ⟨hold, -⟩ | ⟨r, hr, -, rfl⟩
      · exact .inl (.inl ⟨u, hold, rfl⟩)
      · exact .inl (.inl ⟨r, hr, rfl⟩)
    | _ => exact .inl (.inl ⟨u, hu, rfl⟩)
  · rcases h.session_of hsession with hold | ⟨-, hissued⟩
    · exact .inl (.inr ⟨session, hold, rfl⟩)
    · exact .inr hissued

/-! ### The invariant -/

/-- No cutoff lies further ahead than the second that has begun, names in use were drawn, and
the payloads of the OAuth server agree with their browser session. -/
structure AccountInv (w : AccountWorld) : Prop where
  cutoffs : ∀ userId u, w.db.user? userId = some u →
    ∀ cutoff ∈ u.passwordChangedAt, cutoff ≤ nextWholeSecond w.now
  drawn : ∀ x, w.db.Names x → w.issued.find? x ≠ none
  credentials : ∀ code ∈ w.db.oauthCredentials, ∃ session ∈ w.db.oauthSessions,
    session.Grants code

/-- The cutoff of a written row. -/
theorem Justified.cutoff_le (h : Justified env a w row c)
    (hrow : ∀ cutoff ∈ row.passwordChangedAt, cutoff ≤ nextWholeSecond w.now) :
    ∀ cutoff ∈ (c.data.apply row).passwordChangedAt, cutoff ≤ nextWholeSecond w.now := by
  intro cutoff hcutoff
  rcases h.cutoff with hnone | ⟨t, ht, hwritten, -⟩
  · rw [AccountUpdateInput.passwordChangedAt_apply, hnone] at hcutoff
    exact hrow cutoff hcutoff
  · rw [AccountUpdateInput.passwordChangedAt_apply, hwritten] at hcutoff
    obtain rfl : nextWholeSecond t = cutoff := by simpa using hcutoff
    exact nextWholeSecond_mono ht

theorem AccountInv.move (h : AccountInv w) (hmove : Move (accountGuarantee env) w w') :
    AccountInv w' := by
  cases hmove with
  | tick n =>
    refine ⟨?_, h.drawn, h.credentials⟩
    intro userId u hu cutoff hcutoff
    have hbefore := h.cutoffs userId u hu cutoff hcutoff
    exact hbefore.trans (nextWholeSecond_mono (Nat.le_add_right _ _))
  | issue y p hy =>
    refine ⟨h.cutoffs, ?_, h.credentials⟩
    intro x hx
    obtain ⟨r, hr⟩ := Option.ne_none_iff_exists'.mp (h.drawn x hx)
    have hne : x ≠ y := by
      rintro rfl
      simp [hr] at hy
    have hfind : (w.issued.insert (y, some p)).find? x = some r := by
      rw [Table.find?_insert hne, hr]
    simp [World.issue, hfind]
  | act a held ev s hstep =>
    constructor
    · intro userId u hu
      rcases AccountStep.user?_after hstep hu with hold | ⟨c, row, -, -, hrow, rfl, hjust⟩ |
        ⟨-, -, hnew⟩
      · exact h.cutoffs userId u hold
      · exact hjust.cutoff_le (h.cutoffs userId row hrow)
      · intro cutoff hcutoff
        exact (hnew.cutoff cutoff hcutoff).trans (le_nextWholeSecond _)
    · intro x hx
      rcases AccountStep.names hstep hx with hold | hdrawn
      · exact h.drawn x hold
      · simp [World.push, hdrawn]
    · intro code hcode
      have hgrants : ∃ session ∈ w.db.oauthSessions, session.Grants code := by
        rcases AccountStep.credential_of hstep hcode with hold | hnew
        · exact h.credentials code hold
        · exact hnew
      obtain ⟨session, hsession, hgrants⟩ := hgrants
      exact ⟨session, AccountStep.session_kept hstep hsession, hgrants⟩

/-- The guarantee of the account system, with its invariant. -/
def accountProtocol (env : AccountEnv) :
    Protocol AccountStore RowLock AccountEvent Uuid AccountRequest where
  guar := accountGuarantee env
  Inv := AccountInv
  inv_move := AccountInv.move

/-! ### Later worlds -/

section Later

variable (hw : Moves (accountGuarantee env) w w')
include hw

theorem Txn.Moves.accountInv (h : AccountInv w) : AccountInv w' :=
  hw.invariant (J := AccountInv) AccountInv.move h

theorem Txn.Moves.session_mem {session : OAuthSession} (h : session ∈ w.db.oauthSessions) :
    session ∈ w'.db.oauthSessions := by
  refine hw.invariant (J := fun v => session ∈ v.db.oauthSessions) (fun {v v'} hv hmove => ?_) h
  cases hmove with
  | tick | issue => exact hv
  | act b held ev s hstep => exact AccountStep.session_kept hstep hv

theorem Txn.Moves.accessToken_mem {token : OAuthAccessToken}
    (h : token ∈ w.db.oauthAccessTokens) : token ∈ w'.db.oauthAccessTokens := by
  refine hw.invariant (J := fun v => token ∈ v.db.oauthAccessTokens) (fun {v v'} hv hmove => ?_) h
  cases hmove with
  | tick | issue => exact hv
  | act b held ev s hstep => exact AccountStep.accessToken_kept hstep hv

/-- What a process drew stays its own. -/
theorem Txn.Moves.issued_eq {p : Option ℕ} (h : w.issued.find? x = some (x, p)) :
    w'.issued.find? x = some (x, p) := by
  refine hw.invariant (J := fun v => v.issued.find? x = some (x, p)) (fun {v v'} hv hmove => ?_) h
  cases hmove with
  | tick | act => exact hv
  | issue y q hy =>
    have hne : x ≠ y := by
      rintro rfl
      simp [hv] at hy
    have hfind : (v.issued.insert (y, some q)).find? x = v.issued.find? x :=
      Table.find?_insert hne
    exact hfind.trans hv

end Later

/-- A row stays as it is while it is locked. -/
theorem Txn.Interf.user?_eq (hw : Interf (accountGuarantee env) a held w w')
    (hlock : held (.user userId)) : w'.db.user? userId = w.db.user? userId := by
  refine hw.stable (P := fun v => v.db.user? userId = w.db.user? userId)
    (fun {v v'} hv henv => ?_) rfl
  cases henv with
  | tick | issue => exact hv
  | other b others ev s _ hdisjoint hstep =>
    have hfree := hdisjoint _ hlock
    cases AccountStep.rowChange hstep userId with
    | kept hrow => exact hrow.trans hv
    | changed _ _ _ _ _ _ hheld => exact absurd hheld hfree
    | created _ _ _ _ _ hheld => exact absurd hheld hfree
  | own ev hstep => exact hv

theorem issued_issue {p : ℕ} (hx : w.issued.find? x = none) :
    (w.issue x p).issued.find? x = some (x, some p) := by
  have hfresh : ∀ r ∈ w.issued, r.1 ≠ x := Table.find?_eq_none.mp hx
  exact Table.find?_eq_some.mpr ⟨(Table.mem_insert hfresh).mpr (.inr rfl), rfl⟩

theorem NewName.issue (h : AccountInv w) (hx : w.issued.find? x = none) :
    NewName a (w.issue x a.pid) x where
  issued := issued_issue hx
  unused hnames := h.drawn x hnames hx

/-- Nobody else uses a name that a process drew. -/
theorem NewName.stable (hw : Interf (accountGuarantee env) a held w w') (h : NewName a w x) :
    NewName a w' x := by
  have hboth : w'.issued.find? x = some (x, some a.pid) ∧ ¬ w'.db.Names x := by
    refine hw.stable (P := fun v => v.issued.find? x = some (x, some a.pid) ∧ ¬ v.db.Names x)
      (fun {v v'} hv henv => ?_) ⟨h.issued, h.unused⟩
    obtain ⟨hissued, hunused⟩ := hv
    refine ⟨Moves.issued_eq (.single henv.move) hissued, ?_⟩
    cases henv with
    | tick | issue => exact hunused
    | other b others ev s hpid _ hstep =>
      intro hnames
      rcases AccountStep.names hstep hnames with hold | hdrawn
      · exact hunused hold
      · simp only [hissued, Option.some.injEq, Prod.mk.injEq, true_and] at hdrawn
        exact hpid hdrawn.symm
    | own ev hstep => exact hunused
  exact ⟨hboth.1, hboth.2⟩

end NestApi
