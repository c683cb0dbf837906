import NestApi.Accounts.Runs

/-!
# MCP sign-ins and session ends

An access token is judged by its own issue time, the code that it was exchanged for by the time
of the sign-in. Both times are taken after the account was looked up. As long as they lie before
the cutoff of a session end that came after the lookup, the token ends with the session.
-/

namespace NestApi

open Txn Accounts AccountEvent McpOAuth

/-! ### Times and cutoffs -/

/-- A time in seconds before a whole second is in an earlier second. -/
theorem lt_of_mul_lt_nextWholeSecond {seconds t : ℕ} (h : seconds * 1000 < nextWholeSecond t) :
    seconds < nextWholeSecond t / 1000 := by
  unfold nextWholeSecond at h ⊢
  omega

/-- An account is not usable with a time before its cutoff. -/
theorem not_isAccountUsable {user : Account} {cutoff time : ℕ}
    (hcutoff : cutoff ∈ user.passwordChangedAt) (h : time < cutoff / 1000) :
    isAccountUsable user (some time) = false := by
  have hnot : ¬ cutoff / 1000 ≤ time := by omega
  simp [isAccountUsable, Option.mem_def.mp hcutoff, hnot]

/-! ### The law and its condition -/

/-- The session of a sign-in. -/
def AccountEvent.signedIn? : AccountEvent → Option OAuthSession
  | .oauthSignedIn session => some session
  | _ => none

/-- An issued access token. -/
def AccountEvent.issued? : AccountEvent → Option OAuthAccessToken
  | .accessTokenIssued token => some token
  | _ => none

/-- An access token that was used, and the answer. -/
def AccountEvent.used? : AccountEvent → Option (OAuthAccessToken × Bool)
  | .accessTokenVerified token accepted => some (token, accepted)
  | _ => none

theorem AccountEvent.signedIn?_eq_some {ev : AccountEvent} {session : OAuthSession} :
    ev.signedIn? = some session ↔ ev = .oauthSignedIn session := by
  cases ev <;> simp [signedIn?]

theorem AccountEvent.issued?_eq_some {ev : AccountEvent} {token : OAuthAccessToken} :
    ev.issued? = some token ↔ ev = .accessTokenIssued token := by
  cases ev <;> simp [issued?]

theorem AccountEvent.used?_eq_some {ev : AccountEvent} {token : OAuthAccessToken}
    {accepted : Bool} :
    ev.used? = some (token, accepted) ↔ ev = .accessTokenVerified token accepted := by
  cases ev <;> simp [used?]

/-- The process had read the row of this account. -/
def HasFound (a : Agent AccountRequest) (userId : Uuid) (l : AccountLog) : Prop :=
  ∃ y ∈ l, y.agent = a ∧ ∃ u ∈ y.event.found?, u.id = userId

instance (a : Agent AccountRequest) (userId : Uuid) (l : AccountLog) :
    Decidable (HasFound a userId l) :=
  inferInstanceAs (Decidable (∃ y ∈ l, _))

/-- The token was issued in the run. -/
def IssuedIn (token : OAuthAccessToken) (l : AccountLog) : Prop :=
  ∃ x ∈ l, x.event = .accessTokenIssued token

instance (token : OAuthAccessToken) (l : AccountLog) : Decidable (IssuedIn token l) :=
  inferInstanceAs (Decidable (∃ x ∈ l, _))

/-- The account's sessions were ended after the process had read its row. -/
def EndedSince (a : Agent AccountRequest) (userId : Uuid) (l : AccountLog) : Prop :=
  SomeEntry (fun e k => (e.event.cutoffOf? userId).isSome = true ∧ HasFound a userId k) l

instance (a : Agent AccountRequest) (userId : Uuid) (l : AccountLog) :
    Decidable (EndedSince a userId l) :=
  inferInstanceAs (Decidable (SomeEntry _ l))

/-- A use of an issued token is refused once the sessions of the account were ended after its
sign-in had read the row. -/
def SignInsRevoked (log : AccountLog) : Prop :=
  EveryEntry (fun v j => ∀ use ∈ v.event.used?, IssuedIn use.1 j →
    EveryEntry (fun s _ => ∀ session ∈ s.event.signedIn?, session.uid = use.1.sessionUid →
      EndedSince s.agent session.accountId j → use.2 = false) j) log

instance (log : AccountLog) : Decidable (SignInsRevoked log) :=
  inferInstanceAs (Decidable (EveryEntry _ log))

/-- When a session end commits after a sign-in or an exchange has read the account, the time that
the sign-in or the exchange takes lies before its cutoff. -/
structure TimesBeforeCutoffs (log : AccountLog) : Prop where
  signedIn : EveryEntry (fun s _ => ∀ session ∈ s.event.signedIn?,
    EveryEntry (fun e l => HasFound s.agent session.accountId l →
      ∀ cutoff ∈ e.event.cutoffOf? session.accountId, session.authTime * 1000 < cutoff) log) log
  exchanged : EveryEntry (fun x _ => ∀ token ∈ x.event.issued?,
    EveryEntry (fun e l => HasFound x.agent token.accountId l →
      ∀ cutoff ∈ e.event.cutoffOf? token.accountId, token.iat * 1000 < cutoff) log) log

section

variable {env : AccountEnv} {init : AccountStore} {σ : AccountConfig} {l l' k j : AccountLog}
  {e x s : Entry AccountStore AccountEvent AccountRequest} {userId : Uuid} {u : Account}
  {session : OAuthSession} {token : OAuthAccessToken}

/-- The cutoff of a session end, on the row that a later state has. -/
theorem AccountsRunTo.cutoff_after (h : AccountsRunTo env init σ) {cutoff : ℕ}
    (he : (e :: l) <:+ l') (hl' : l' <:+ σ.world.log)
    (hev : e.event.cutoffOf? userId = some cutoff)
    (hu : (stateOf init l').user? userId = some u) :
    ∃ t, cutoff = nextWholeSecond t ∧ ∃ c ∈ u.passwordChangedAt, cutoff ≤ c := by
  have hlog := he.trans hl'
  obtain ⟨r, hr, c, hc, hle⟩ := h.cutoffFrom_mono he hl' (h.cutoffFrom_of hlog hev)
  obtain rfl : u = r := Option.some_inj.mp (hu.symm.trans hr)
  obtain ⟨d, hchange, -, hwritten⟩ := cutoffOf?_eq_some.mp hev
  obtain ⟨w, row, -, -, -, hjustified, -⟩ := h.of_changed hlog hchange
  rcases hjustified.cutoff with hnone | ⟨t, -, hwritten', -⟩
  · rw [hnone] at hwritten
    cases hwritten
  · rw [hwritten'] at hwritten
    obtain rfl : nextWholeSecond t = cutoff := by simpa using hwritten
    exact ⟨t, rfl, c, hc, hle⟩

/-- After a session end no row is usable with a time before its cutoff. -/
theorem AccountsRunTo.not_usable_after (h : AccountsRunTo env init σ) {cutoff time : ℕ}
    (he : (e :: l) <:+ l') (hl' : l' <:+ σ.world.log)
    (hev : e.event.cutoffOf? userId = some cutoff) (htime : time * 1000 < cutoff)
    (hu : (stateOf init l').user? userId = some u) : isAccountUsable u (some time) = false := by
  obtain ⟨t, rfl, c, hc, hle⟩ := h.cutoff_after he hl' hev hu
  have hsecond := lt_of_mul_lt_nextWholeSecond htime
  have hlater := Nat.div_le_div_right (c := 1000) hle
  exact not_isAccountUsable hc (hsecond.trans_le hlater)

theorem AccountsRunTo.session_kept (h : AccountsRunTo env init σ) (hl : l <:+ l')
    (hl' : l' <:+ σ.world.log) (hmem : session ∈ (stateOf init l).oauthSessions) :
    session ∈ (stateOf init l').oauthSessions := by
  refine stateOf_persists (P := fun s : AccountStore => session ∈ s.oauthSessions) hl hmem ?_
  intro e k _ hek hbefore
  obtain ⟨w, L, rfl, rfl, -, hstep, -⟩ := h.entry (hek.trans hl')
  exact hstep.session_kept hbefore

theorem AccountsRunTo.session_of_signedIn (h : AccountsRunTo env init σ)
    (hs : (s :: k) <:+ σ.world.log) (hev : s.event = .oauthSignedIn session) :
    session ∈ s.db.oauthSessions := by
  obtain ⟨w, L, rfl, rfl, hinv, hstep, -⟩ := h.entry hs
  obtain ⟨b, ev, db⟩ := s
  obtain rfl : ev = .oauthSignedIn session := hev
  cases hstep with
  | oauthSignedIn _ hname =>
    have hfresh : ∀ r ∈ w.db.oauthSessions, r.uid ≠ session.uid := by
      intro r hr huid
      exact hname.unused (.inr ⟨r, hr, huid⟩)
    exact (Table.mem_insert hfresh).mpr (.inr rfl)

/-- What an exchange has found: the browser session, and the account, usable with its time. -/
theorem AccountsRunTo.of_issued (h : AccountsRunTo env init σ) (hx : (x :: k) <:+ σ.world.log)
    (hev : x.event = .accessTokenIssued token) :
    ∃ session ∈ (stateOf init k).oauthSessions, session.uid = token.sessionUid ∧
      session.accountId = token.accountId ∧ ∃ user db i,
        (⟨x.agent, .userRead (some user), db⟩ :: i) <:+ k ∧ user.id = token.accountId ∧
          isAccountUsable user (some session.authTime) = true := by
  obtain ⟨w, L, rfl, rfl, -, hstep, -⟩ := h.entry hx
  obtain ⟨b, ev, db⟩ := x
  obtain rfl : ev = .accessTokenIssued token := hev
  cases hstep with
  | accessTokenIssued _ hsession =>
    obtain ⟨session, hmem, huid, haccount, user, ⟨s, i, hi⟩, hid, husable⟩ := hsession
    exact ⟨session, hmem, huid, haccount, user, s, i, hi, hid, husable⟩

/-- What the exchange of a sign-in has found: the account, usable with the time of the sign-in. -/
theorem AccountsRunTo.of_issued_signedIn (h : AccountsRunTo env init σ) (hj : j <:+ σ.world.log)
    (hx : (x :: k) <:+ j) (hissued : x.event = .accessTokenIssued token) (hs : (s :: l) <:+ j)
    (hsigned : s.event = .oauthSignedIn session) (huid : session.uid = token.sessionUid) :
    session.accountId = token.accountId ∧ ∃ user db i,
      (⟨x.agent, .userRead (some user), db⟩ :: i) <:+ k ∧ user.id = token.accountId ∧
        isAccountUsable user (some session.authTime) = true := by
  obtain ⟨found, hfound, huid', haccount, hread⟩ := h.of_issued (hx.trans hj) hissued
  have hbefore := h.session_kept ((List.suffix_cons x k).trans hx) hj hfound
  have hmem : session ∈ (stateOf init (s :: l)).oauthSessions :=
    h.session_of_signedIn (hs.trans hj) hsigned
  -- names of sessions are never reused
  obtain rfl : found = session :=
    Table.eq_of_key hbefore (h.session_kept hs hj hmem) (huid'.trans huid.symm)
  exact ⟨haccount, hread⟩

/-- A token that is accepted speaks for a usable account. -/
theorem AccountsRunTo.of_accepted (h : AccountsRunTo env init σ) (hx : (x :: k) <:+ σ.world.log)
    (hev : x.event = .accessTokenVerified token true) :
    ∃ u, (stateOf init k).user? token.accountId = some u ∧
      isAccountUsable u (some token.iat) = true := by
  obtain ⟨w, L, rfl, rfl, -, hstep, -⟩ := h.entry hx
  obtain ⟨b, ev, db⟩ := x
  obtain rfl : ev = .accessTokenVerified token true := hev
  generalize haccepted : true = accepted at hstep
  cases hstep with
  | accessTokenVerified _ hmem =>
    obtain ⟨u, hu, husable⟩ := (Option.any_eq_true _ _).mp haccepted.symm
    exact ⟨u, (AccountStore.of_scopedUser? hu).1, husable.trans haccepted⟩

end

/-- No token outlives the end of the sessions in a run in which sign-ins and exchanges take their
time before the cutoffs that come after their lookups. -/
theorem signInsRevoked_of_timely {env : AccountEnv} {init : AccountStore} {σ : AccountConfig}
    (h : AccountsRunTo env init σ) (htimes : TimesBeforeCutoffs σ.world.log) :
    SignInsRevoked σ.world.log := by
  refine everyEntry_iff.mpr fun v j hv use hused hissued => everyEntry_iff.mpr ?_
  intro s k hs session hsigned huid hended
  obtain ⟨e, l, he, hends, hfound⟩ := someEntry_iff.mp hended
  obtain ⟨token, accepted⟩ := use
  have hvev : v.event = .accessTokenVerified token accepted := used?_eq_some.mp hused
  have hj := (List.suffix_cons v j).trans hv
  cases accepted with
  | false => rfl
  | true =>
    exfalso
    obtain ⟨x, hx, hxev⟩ := hissued
    obtain ⟨i, hi⟩ := exists_suffix_of_mem hx
    obtain ⟨haccount, user, db, m, hm, hid, husable⟩ :=
      h.of_issued_signedIn hj hi hxev hs (signedIn?_eq_some.mp hsigned) huid
    have hread := hm.trans ((List.suffix_cons x i).trans hi)
    obtain ⟨cutoff, hcutoff⟩ := Option.isSome_iff_exists.mp hends
    have htime := everyEntry_iff.mp (everyEntry_iff.mp htimes.signedIn s k (hs.trans hj) session
      hsigned) e l (he.trans hj) hfound cutoff hcutoff
    rw [haccount] at hcutoff
    rcases Nat.lt_trichotomy m.length l.length with hbefore | hsame | hafter
    · -- the exchange found the account before the session end
      have hfound' : HasFound x.agent token.accountId l :=
        ⟨_, (before_of_length_lt hread he hbefore).subset List.mem_cons_self, rfl, user, rfl, hid⟩
      have hiat := everyEntry_iff.mp (everyEntry_iff.mp htimes.exchanged x i (hi.trans hj) token
        (issued?_eq_some.mpr hxev)) e l (he.trans hj) hfound' cutoff hcutoff
      obtain ⟨u, hu, haccepted⟩ := h.of_accepted hv hvev
      rw [h.not_usable_after he hj hcutoff hiat hu] at haccepted
      cases haccepted
    · obtain ⟨rfl, -⟩ := eq_of_length_eq hread he hsame
      cases hcutoff
    · -- the exchange found the account after it, with the time of the sign-in
      obtain ⟨hu, -⟩ := h.of_found (hread.trans hj) rfl
      rw [← hid] at hcutoff
      have hbefore := before_of_length_lt he hread hafter
      have hm' := (List.suffix_cons _ m).trans (hread.trans hj)
      rw [h.not_usable_after hbefore hm' hcutoff htime hu] at husable
      cases husable

/-- Ann signs in, approves and uses her token. Then she signs out everywhere and tries again. -/
def signOutEverywhere : List (Order AccountRequest) :=
  [.serve 1 (.oauthLogin "ann@a" "secret"), .proceed 1, .proceed 1,
    .serve 2 (.oauthConfirm "#i"), .proceed 2, .proceed 2, .proceed 2,
    .serve 3 (.oauthToken "#ii"), .proceed 3, .proceed 3, .proceed 3,
    .serve 4 (.verifyAccessToken "#iii"), .proceed 4, .serve 5 (.logoutAll "ann"), .proceed 5,
    .pass 1000, .serve 6 (.verifyAccessToken "#iii"), .proceed 6,
    .serve 7 (.oauthToken "#iiii"), .proceed 7]

theorem signInsRevoked_signOutEverywhere :
    SignInsRevoked (Sample.performAccounts Sample.ann 5400 signOutEverywhere).world.log :=
  signInsRevoked_of_timely
    (Sample.accountsRunTo _ _ _ (by simp [Sample.ann, Sample.user]) rfl)
    ⟨by decide +kernel, by decide +kernel⟩

/-- Somebody signs in with Ann's password while she changes it. -/
def signInUnderChange : List (Order AccountRequest) :=
  [.serve 1 (.oauthLogin "ann@a" "secret"), .proceed 1,
    .serve 2 (.updateOwnPassword "ann" "secret" "better"), .proceed 2, .proceed 2, .pass 1000,
    .proceed 1, .serve 3 (.oauthConfirm "#ii"), .proceed 3, .proceed 3, .proceed 3,
    .serve 4 (.oauthToken "#iii"), .proceed 4, .proceed 4, .proceed 4,
    .serve 5 (.verifyAccessToken "#iiii"), .proceed 5]

/-- The token that comes of it is accepted. -/
theorem not_signInsRevoked_signInUnderChange :
    AccountsRunTo Sample.accountEnv (Sample.accountStore Sample.ann)
        (Sample.performAccounts Sample.ann 5400 signInUnderChange) ∧
      ¬ SignInsRevoked (Sample.performAccounts Sample.ann 5400 signInUnderChange).world.log :=
  ⟨Sample.accountsRunTo _ _ _ (by simp [Sample.ann, Sample.user]) rfl, by decide +kernel⟩

end NestApi
