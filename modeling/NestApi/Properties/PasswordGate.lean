import NestApi.Accounts.Runs

/-!
# Writes behind a password

Moving the address, changing the own password and erasing the account compare the current
password with a row read before any lock. Nothing compares the cutoff again, as starting a
session does. So such a write is bound to the password exactly when the cutoff that it finds is
the one that was read.
-/

namespace NestApi

open Txn Accounts AccountEvent

/-- The operation verifies the current password. -/
def ChangeKind.IsPasswordGated : ChangeKind → Prop
  | .email | .ownPassword | .erasure => True
  | _ => False

instance : DecidablePred ChangeKind.IsPasswordGated := fun kind => by
  unfold ChangeKind.IsPasswordGated
  split <;> infer_instance

/-- Behind a password: no credential change, revocation or erasure of the account came since the
process read the row whose password it verified. -/
def PasswordsCurrent (log : AccountLog) : Prop :=
  EveryEntry (fun e l => ∀ c ∈ e.event.change?, c.kind.IsPasswordGated →
    Undisturbed (fun ev => ev = .userRead c.seen)
      (fun x _ => (x.event.cutoffOf? c.userId).isSome = true) e.agent l) log

/-- Every write behind a password finds the cutoff that was read, and no end of the sessions in
between wrote this cutoff once more, as it does within the same second. -/
def CutoffsUnmoved (init : AccountStore) (log : AccountLog) : Prop :=
  EveryEntry (fun e l => ∀ c ∈ e.event.change?, c.kind.IsPasswordGated → ∀ user ∈ c.seen,
    (∀ row ∈ (stateOf init l).user? c.userId, row.passwordChangedAt = user.passwordChangedAt) ∧
      ∀ cutoff ∈ user.passwordChangedAt, Undisturbed (fun ev => ev = .userRead c.seen)
        (fun x _ => x.event.cutoffOf? c.userId = some cutoff) e.agent l) log

instance (log : AccountLog) : Decidable (PasswordsCurrent log) :=
  inferInstanceAs (Decidable (EveryEntry _ log))

section

variable {env : AccountEnv} {init : AccountStore} {σ : AccountConfig} {l k j : AccountLog}
  {e x : Entry AccountStore AccountEvent AccountRequest} {userId : Uuid} {user row : Account}
  {c : Change} {cutoff : ℕ}

theorem Justified.gated {a : Agent AccountRequest} {w : AccountWorld}
    (h : Justified env a w row c) (hkind : c.kind.IsPasswordGated) :
    ∃ user, c.seen = some user ∧ HasRead a w user ∧ user.id = c.userId := by
  have hseen : ∃ user, c.seen = some user := by
    cases h with
    | email user | ownPassword user | erasure user => exact ⟨user, rfl⟩
    | _ => exact hkind.elim
  obtain ⟨user, hseen⟩ := hseen
  exact ⟨user, hseen, h.seen hseen⟩

/-- The end of the sessions writes a cutoff that is not before the last one. -/
theorem AccountsRunTo.le_cutoff (h : AccountsRunTo env init σ) {last : ℕ}
    (hl : (x :: j) <:+ σ.world.log) (hx : x.event.cutoffOf? userId = some cutoff)
    (hlast : (stateOf init j).CutoffFrom userId last) : last ≤ cutoff := by
  obtain ⟨c, hev, rfl, hcutoff⟩ := cutoffOf?_eq_some.mp hx
  obtain ⟨r, hr, old, hold, hle⟩ := hlast
  obtain ⟨-, w, hjustified⟩ := h.of_changed_row hl hev hr
  rcases hjustified.cutoff with hnone | ⟨t, -, hwritten, hbound⟩
  · rw [hnone] at hcutoff
    cases hcutoff
  · obtain rfl : nextWholeSecond t = cutoff := by simpa [hwritten] using hcutoff
    exact hle.trans (hbound old hold)

/-- Between a read of the row and a later state, the cutoff lies between the two. -/
theorem AccountsRunTo.cutoff_bounds (h : AccountsRunTo env init σ) (hl : l <:+ σ.world.log)
    (hread : (e :: k) <:+ j) (hev : e.event = .userRead (some user)) (hx : (x :: j) <:+ l)
    (hcutoff : x.event.cutoffOf? user.id = some cutoff) :
    (∀ c ∈ user.passwordChangedAt, c ≤ cutoff) ∧ (stateOf init l).CutoffFrom user.id cutoff := by
  have hj := ((List.suffix_cons x j).trans hx).trans hl
  constructor
  · intro c hc
    have hfrom : (stateOf init (e :: k)).CutoffFrom user.id c :=
      ⟨user, h.user?_of_found (hread.trans hj) hev, c, hc, Nat.le_refl c⟩
    exact h.le_cutoff (hx.trans hl) hcutoff (h.cutoffFrom_mono hread hj hfrom)
  · exact h.cutoffFrom_mono hx hl (h.cutoffFrom_of (hx.trans hl) hcutoff)

/-- Without an end of the sessions in between, the cutoff is the one that was read. -/
theorem AccountsRunTo.cutoff_kept (h : AccountsRunTo env init σ) (hl : l <:+ σ.world.log)
    (hread : (e :: k) <:+ l) (hev : e.event = .userRead (some user))
    (hnone : ∀ x j, (e :: k) <:+ j → (x :: j) <:+ l → x.event.cutoffOf? user.id = none) :
    ∀ r ∈ (stateOf init l).user? user.id, r.passwordChangedAt = user.passwordChangedAt := by
  have hrow := h.user?_of_found (hread.trans hl) hev
  have hcolumn : ∃ r, (stateOf init l).user? user.id = some r ∧
      r.passwordChangedAt = user.passwordChangedAt := by
    refine h.column_kept (f := fun u => u.passwordChangedAt) hread hl hrow ?_
    intro x j c r hj hx hchange hid hr _
    obtain ⟨w, row, rfl, hbefore, -, hjustified, -⟩ := h.of_changed (hx.trans hl) hchange
    rcases hjustified.cutoff with hunwritten | ⟨t, -, hwritten, -⟩
    · simp [hunwritten]
    · have hended : x.event.cutoffOf? user.id = some (nextWholeSecond t) :=
        cutoffOf?_eq_some.mpr ⟨c, hchange, hid, hwritten⟩
      rw [hnone x w.log hj hx] at hended
      cases hended
  obtain ⟨r, hr, hsame⟩ := hcolumn
  intro r' hr'
  obtain rfl : r' = r := Option.some_inj.mp (hr'.symm.trans hr)
  exact hsame

end

/-- The password that was checked is still the account's exactly when the cutoff is the one that
was read, and was not written once more. -/
theorem passwordsCurrent_iff {env : AccountEnv} {init : AccountStore} {σ : AccountConfig}
    (h : AccountsRunTo env init σ) :
    PasswordsCurrent σ.world.log ↔ CutoffsUnmoved init σ.world.log := by
  constructor
  · intro hcurrent
    refine everyEntry_iff.mpr fun e l hl c hc hkind user huser => ?_
    have hgated := everyEntry_iff.mp hcurrent e l hl c hc hkind
    have hseen : c.seen = some user := huser
    obtain ⟨w, row, rfl, -, -, hjustified, -⟩ := h.of_changed hl (change?_eq_some.mp hc)
    obtain ⟨⟨s, k, hk⟩, hid⟩ := hjustified.seen hseen
    have hlog := (List.suffix_cons e w.log).trans hl
    -- nothing ended the sessions after the read
    have hnone : ∀ x j, (⟨e.agent, .userRead (some user), s⟩ :: k) <:+ j → (x :: j) <:+ w.log →
        x.event.cutoffOf? user.id = none := by
      intro x j hj hx
      have hnot : ¬ (x.event.cutoffOf? c.userId).isSome = true :=
        hgated.not_after hj hx rfl (congrArg AccountEvent.userRead hseen.symm)
      rw [hid]
      simpa using hnot
    refine ⟨?_, fun cutoff _ => everyEntry_iff.mpr fun x j hx hended y hy hagent hread => ?_⟩
    · rw [← hid]
      exact h.cutoff_kept hlog hk rfl hnone
    · have hsome : (x.event.cutoffOf? c.userId).isSome = true :=
        Option.isSome_iff_exists.mpr ⟨cutoff, hended⟩
      exact everyEntry_iff.mp hgated x j hx hsome y hy hagent hread
  · intro hunmoved
    refine everyEntry_iff.mpr fun e l hl c hc hkind => ?_
    obtain ⟨w, row, rfl, hrow, -, hjustified, -⟩ := h.of_changed hl (change?_eq_some.mp hc)
    obtain ⟨user, hseen, -, hid⟩ := hjustified.gated hkind
    obtain ⟨hsame, hagain⟩ := everyEntry_iff.mp hunmoved e w.log hl c hc hkind user hseen
    have hlog := (List.suffix_cons e w.log).trans hl
    refine everyEntry_iff.mpr fun x j hx hended y hy hagent hread => ?_
    obtain ⟨cutoff, hcutoff⟩ := Option.isSome_iff_exists.mp hended
    obtain ⟨k, hk⟩ := exists_suffix_of_mem hy
    have hev : y.event = .userRead (some user) := by rw [hread, hseen]
    rw [← hid] at hcutoff
    -- the cutoff that was read, the one in between and the one that is found are the same
    obtain ⟨hbefore, r, hr, now, hnow, hle⟩ := h.cutoff_bounds hlog hk hev hx hcutoff
    rw [hid] at hr hcutoff
    have hnow' : now ∈ user.passwordChangedAt := by rw [← hsame r hr]; exact hnow
    obtain rfl : cutoff = now := Nat.le_antisymm hle (hbefore now hnow')
    exact everyEntry_iff.mp (hagain cutoff hnow') x j hx hcutoff y hy hagent hread

/-- Somebody moves Ann's address with her old password, which is changed meanwhile. -/
def staleEmailChange : List (Order AccountRequest) :=
  [.serve 1 (.updateEmail "ann" "secret" "eve@e"), .proceed 1,
    .serve 2 (.updatePasswordAsAdmin "ann" "root" "fresh"), .proceed 2, .proceed 2, .proceed 1]

theorem passwordsCurrent_iff_staleEmailChange :
    PasswordsCurrent (Sample.performAccounts Sample.ann 5000 staleEmailChange).world.log ↔
      CutoffsUnmoved (Sample.accountStore Sample.ann)
        (Sample.performAccounts Sample.ann 5000 staleEmailChange).world.log :=
  passwordsCurrent_iff (Sample.accountsRunTo _ _ _ (by simp [Sample.ann, Sample.user]) rfl)

/-- The address is moved after the password was changed. -/
theorem not_passwordsCurrent_staleEmailChange :
    AccountsRunTo Sample.accountEnv (Sample.accountStore Sample.ann)
        (Sample.performAccounts Sample.ann 5000 staleEmailChange) ∧
      ¬ PasswordsCurrent (Sample.performAccounts Sample.ann 5000 staleEmailChange).world.log :=
  ⟨Sample.accountsRunTo _ _ _ (by simp [Sample.ann, Sample.user]) rfl, by decide +kernel⟩

end NestApi
