import NestApi.Accounts.Runs

/-!
# The alert after a change of address

When a verified address is replaced, an audit row names it and a notice is queued for it. Both
are made from the row that the handler read before its write, so they are right exactly when the
write finds the address and the stamp that were read.
-/

namespace NestApi

open Txn Accounts AccountEvent

/-- The operation moves an account to another address on behalf of somebody. -/
def ChangeKind.IsAddressChange : ChangeKind → Prop
  | .update | .deactivation | .email => True
  | _ => False

instance : DecidablePred ChangeKind.IsAddressChange := fun kind => by
  unfold ChangeKind.IsAddressChange
  split <;> infer_instance

/-- The write replaces the verified address of the row that it finds. -/
def Change.ReplacesVerified (c : Change) (row : Account) : Prop :=
  row.emailVerifiedAt.isSome = true ∧ ∃ email ∈ c.data.email, email ≠ row.email

instance (c : Change) (row : Account) : Decidable (c.ReplacesVerified row) :=
  inferInstanceAs (Decidable (_ ∧ _))

/-- The row that the handler had read had the address of the row that the write finds, verified
already. -/
def Change.ForetellsAddress (c : Change) (row : Account) : Prop :=
  ∀ seen ∈ c.seen, seen.email = row.email ∧ seen.emailVerifiedAt.isSome = true

instance (c : Change) (row : Account) : Decidable (c.ForetellsAddress row) :=
  inferInstanceAs (Decidable (∀ seen ∈ c.seen, _))

/-- The audit row that was written. -/
def AccountEvent.audited? : AccountEvent → Option AuditLog
  | .audited row => some row
  | _ => none

/-- After its first `n` entries the history has an audit row of the change that names the
replaced address, and then the notice that is mailed to the address on this row. -/
def Alerted (userId : Uuid) (previousEmail : String) (n : ℕ) (log : AccountLog) : Prop :=
  SomeEntry (fun x k => n < k.length ∧ ∃ row ∈ x.event.audited?,
    (row.action = "user.email_changed" ∧ row.targetUserId = userId ∧
      row.previousEmail = some previousEmail) ∧
        SomeEntry (fun q i => k.length < i.length ∧
          q.event = .queued (.emailChangedNotice userId row.id)) log) log

instance (userId : Uuid) (previousEmail : String) (n : ℕ) (log : AccountLog) :
    Decidable (Alerted userId previousEmail n log) :=
  inferInstanceAs (Decidable (SomeEntry _ log))

/-- A handler that is past its notices has alerted every verified address that it replaced. -/
def TakeoversAlerted (init : AccountStore) (log : AccountLog) : Prop :=
  EveryEntry (fun n j => n.event = .noticesSettled →
    EveryEntry (fun e l => e.agent = n.agent → ∀ c ∈ e.event.change?, c.kind.IsAddressChange →
      ∀ row ∈ (stateOf init l).user? c.userId, c.ReplacesVerified row →
        Alerted c.userId row.email l.length j) j) log

instance (init : AccountStore) (log : AccountLog) : Decidable (TakeoversAlerted init log) :=
  inferInstanceAs (Decidable (EveryEntry _ log))

/-- A write that replaces a verified address finds the address that was read, and it was verified
already then. -/
def AddressesCurrent (init : AccountStore) (log : AccountLog) : Prop :=
  EveryEntry (fun e l => ∀ c ∈ e.event.change?, c.kind.IsAddressChange →
    ∀ row ∈ (stateOf init l).user? c.userId, c.ReplacesVerified row →
      c.ForetellsAddress row) log

instance (init : AccountStore) (log : AccountLog) : Decidable (AddressesCurrent init log) :=
  inferInstanceAs (Decidable (EveryEntry _ log))

/-- A handler that is past its notices gave them for the row that it had read. -/
theorem AccountsRunTo.noticed {env : AccountEnv} {init : AccountStore} {σ : AccountConfig}
    {l : AccountLog} {e : Entry AccountStore AccountEvent AccountRequest}
    (h : AccountsRunTo env init σ) (hl : (e :: l) <:+ σ.world.log)
    (hev : e.event = .noticesSettled) : Noticed e.agent l := by
  obtain ⟨w, L, rfl, rfl, -, hstep, -⟩ := h.entry hl
  obtain ⟨b, ev, s⟩ := e
  obtain rfl : ev = .noticesSettled := hev
  cases hstep with
  | noticesSettled hnoticed => exact hnoticed

/-- Ann proves her address before she moves it. -/
def proveThenMove : List (Order AccountRequest) :=
  [.serve 1 (.verifyEmailByToken "ann@a"), .proceed 1, .proceed 1,
    .serve 2 (.updateEmail "ann" "secret" "ann@b"), .proceed 2, .proceed 2, .proceed 2,
    .proceed 2, .proceed 2, .proceed 2]

/-- Ann, who has not proven her address. -/
def Sample.unverifiedAnn : Account :=
  { Sample.ann with toUser := { Sample.ann.toUser with emailVerifiedAt := none } }

/-- Ann proves her address while somebody who has her password moves it. -/
def proveWhileMoving : List (Order AccountRequest) :=
  [.serve 1 (.updateEmail "ann" "secret" "eve@e"), .proceed 1,
    .serve 2 (.verifyEmailByToken "ann@a"), .proceed 2, .proceed 2, .proceed 1, .proceed 1,
    .proceed 1, .proceed 1]

end NestApi
