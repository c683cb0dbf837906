import Mathlib.Data.Option.Basic

/-!
# Automata

A system whose next state is a function of its state and an action. A run is a list of actions
that are all possible.
-/

namespace NestApi.Txn

variable {σ α : Type} {exec : σ → α → Option σ} {P : σ → Prop} {G H W : σ → α → Prop}
  {s s' : σ} {as : List α}

/-- The state after a list of actions, when each of them is possible. -/
def run (exec : σ → α → Option σ) : σ → List α → Option σ
  | s, [] => some s
  | s, a :: as => (exec s a).bind fun t => run exec t as

/-- Every action is taken in a state where `G` allows it. -/
def Along (exec : σ → α → Option σ) (G : σ → α → Prop) : σ → List α → Prop
  | _, [] => True
  | s, a :: as => G s a ∧ ∀ t ∈ exec s a, Along exec G t as

/-- A run can be followed to see whether `G` holds along it. -/
def decidableAlong [∀ s a, Decidable (G s a)] : ∀ s as, Decidable (Along exec G s as)
  | _, [] => isTrue trivial
  | s, a :: as =>
    match h : exec s a with
    | none => decidable_of_iff (G s a) (by simp [Along, h])
    | some t =>
      have := decidableAlong t as
      decidable_of_iff (G s a ∧ Along exec G t as) (by simp [Along, h])

instance [∀ s a, Decidable (G s a)] : Decidable (Along exec G s as) := decidableAlong s as

@[simp] theorem run_nil : run exec s [] = some s := rfl

theorem run_cons {a : α} : run exec s (a :: as) = some s' ↔
    ∃ t, exec s a = some t ∧ run exec t as = some s' := Option.bind_eq_some_iff

@[simp] theorem along_nil : Along exec G s [] := trivial

theorem run_append {bs : List α} :
    run exec s (as ++ bs) = (run exec s as).bind fun t => run exec t bs := by
  induction as generalizing s with
  | nil => rfl
  | cons a as ih => cases h : exec s a <;> simp [run, h, ih]

/-- What every allowed action keeps holds after a run of allowed actions. -/
theorem run_invariant (hstep : ∀ s a t, G s a → P s → exec s a = some t → P t) (hs : P s)
    (halong : Along exec G s as) (hrun : run exec s as = some s') : P s' := by
  induction as generalizing s with
  | nil => exact Option.some.inj hrun ▸ hs
  | cons a as ih =>
    obtain ⟨t, ht, hrest⟩ := run_cons.mp hrun
    exact ih (hstep s a t halong.1 hs ht) (halong.2 t ht) hrest

/-- Actions that are always allowed are allowed along the run. -/
theorem along_of_forall (h : ∀ s, ∀ a ∈ as, G s a) : Along exec G s as := by
  induction as generalizing s with
  | nil => trivial
  | cons a as ih =>
    exact ⟨h s a List.mem_cons_self, fun t _ => ih fun u b hb => h u b (List.mem_cons_of_mem _ hb)⟩

/-- Two conditions that agree wherever a run of allowed actions comes agree along it. -/
theorem along_congr (hstep : ∀ s a t, W s a → P s → exec s a = some t → P t)
    (hiff : ∀ s a, W s a → P s → (G s a ↔ H s a)) (hs : P s) (halong : Along exec W s as) :
    Along exec G s as ↔ Along exec H s as := by
  induction as generalizing s with
  | nil => exact Iff.rfl
  | cons a as ih =>
    refine and_congr (hiff s a halong.1 hs) (forall₂_congr fun t ht => ?_)
    exact ih (hstep s a t halong.1 hs ht) (halong.2 t ht)

/-- What every action keeps holds after a run. -/
theorem run_induction (hstep : ∀ s a t, P s → exec s a = some t → P t) (hs : P s)
    (hrun : run exec s as = some s') : P s' :=
  run_invariant (G := fun _ _ => True) (fun s a t _ => hstep s a t) hs
    (along_of_forall fun _ _ _ => trivial) hrun

end NestApi.Txn
