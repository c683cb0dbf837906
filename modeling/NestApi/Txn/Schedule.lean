import NestApi.Txn.Machine

/-!
# Schedules

A schedule drives the machine by orders that do not count statements: serve a request,
let a process go on to its next event, let time pass. What a schedule performs is a run of
the machine, whatever the orders are. An order that cannot be carried out does nothing.
-/

namespace NestApi.Txn

/-- One order of a schedule. -/
inductive Order (Req : Type)
  /-- A request arrives and is served by process `p`. -/
  | serve (p : ℕ) (req : Req)
  /-- Process `p` runs until it has reported an event, ends or has to wait. -/
  | proceed (p : ℕ)
  /-- Process `p` executes at most `n` statements. -/
  | statements (p n : ℕ)
  /-- Time passes. -/
  | pass (n : ℕ)

/-- The request an order lets in. -/
def Order.request {Req : Type} : Order Req → Option Req
  | .serve _ req => some req
  | _ => none

namespace Config

variable {Db Lock Event Id Err Req : Type} [DecidableEq Lock] [DecidableEq Id]
  (body : Req → Program Db Lock Event Id Err Unit) (name : ℕ → Id)

/-- The next statement of a process. An identifier that it draws is named by how many
were drawn before. -/
def advance (σ : Config Db Lock Event Id Err Req) (p : ℕ) :
    Option (Config Db Lock Event Id Err Req) :=
  (σ.exec body (.step p)).or (σ.exec body (.draw p (name σ.world.issued.rows.length)))

/-- At most `n` statements of a process, up to its next event if `toEvent` asks for it. -/
def advances (toEvent : Bool) (p : ℕ) :
    ℕ → Config Db Lock Event Id Err Req → Config Db Lock Event Id Err Req
  | 0, σ => σ
  | n + 1, σ =>
    match σ.advance body name p with
    | none => σ
    | some τ =>
      if toEvent = true ∧ τ.world.log.length ≠ σ.world.log.length then τ
      else advances toEvent p n τ

/-- Carry out one order. `fuel` bounds the statements between two events. -/
def perform (fuel : ℕ) (σ : Config Db Lock Event Id Err Req) :
    Order Req → Config Db Lock Event Id Err Req
  | .serve p req => (σ.exec body (.spawn p req)).getD σ
  | .proceed p => advances body name true p fuel σ
  | .statements p n => advances body name false p n σ
  | .pass n => (σ.exec body (.tick n)).getD σ

/-- Carry out a schedule. -/
def performAll (fuel : ℕ) (σ : Config Db Lock Event Id Err Req) (orders : List (Order Req)) :
    Config Db Lock Event Id Err Req :=
  orders.foldl (perform body name fuel) σ

variable {body} {name} {Allowed : Req → Prop} {σ τ : Config Db Lock Event Id Err Req}

theorem reaches_advance {p : ℕ} (h : σ.advance body name p = some τ) :
    Reaches body Allowed σ τ := by
  have hexec : ∃ act : Action Id Req, (∀ q req, act ≠ .spawn q req) ∧ σ.exec body act = some τ := by
    rcases Option.or_eq_some_iff.mp h with hstep | ⟨-, hdraw⟩
    · exact ⟨_, by simp, hstep⟩
    · exact ⟨_, by simp, hdraw⟩
  obtain ⟨act, hspawn, hexec⟩ := hexec
  exact .single ⟨act, fun q req hact => absurd hact (hspawn q req), hexec⟩

theorem reaches_advances {toEvent : Bool} {p n : ℕ} :
    Reaches body Allowed σ (advances body name toEvent p n σ) := by
  induction n generalizing σ with
  | zero => exact .refl
  | succ n ih =>
    unfold advances
    split
    · exact .refl
    · next τ hadvance =>
      split
      · exact reaches_advance hadvance
      · exact (reaches_advance hadvance).trans ih

theorem reaches_perform {fuel : ℕ} {o : Order Req} (h : ∀ req ∈ o.request, Allowed req) :
    Reaches body Allowed σ (σ.perform body name fuel o) := by
  cases o with
  | serve p req =>
    cases hexec : σ.exec body (.spawn p req) with
    | none => simpa [perform, hexec] using .refl
    | some τ =>
      have hstep : Step body Allowed σ τ := by
        refine ⟨.spawn p req, fun q r hact => ?_, hexec⟩
        obtain ⟨rfl, rfl⟩ := Action.spawn.inj hact
        exact h _ rfl
      simpa [perform, hexec] using .single hstep
  | proceed | statements => exact reaches_advances
  | pass n =>
    exact .single ⟨.tick n, by simp, rfl⟩

/-- A schedule performs a run of the machine. -/
theorem reaches_performAll {fuel : ℕ} {orders : List (Order Req)}
    (h : ∀ o ∈ orders, ∀ req ∈ o.request, Allowed req) :
    Reaches body Allowed σ (σ.performAll body name fuel orders) := by
  induction orders generalizing σ with
  | nil => exact .refl
  | cons o orders ih =>
    have hfirst : Reaches body Allowed σ (σ.perform body name fuel o) :=
      reaches_perform (h o (by simp))
    have hrest : ∀ o' ∈ orders, ∀ req ∈ o'.request, Allowed req :=
      fun o' ho' => h o' (by simp [ho'])
    exact hfirst.trans (ih hrest)

end Config

end NestApi.Txn
