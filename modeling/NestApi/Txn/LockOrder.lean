import Mathlib.Logic.Relation
import Mathlib.Order.Lattice
import Mathlib.Data.List.Basic

/-!
# Row locks and who waits for whom

Transactions lock rows in modes, one request after the other, and keep every lock until they
end. A request waits while another transaction holds a conflicting lock. There is no deadlock
when a measure grows along every two steps of waiting; whoever waits for nobody needs none.
-/

namespace NestApi.Txn

/-! ### Modes -/

/-- The modes in use, from the weakest. -/
inductive LockMode
  /-- `FOR KEY SHARE`: a row that is referenced. -/
  | keyShare
  /-- `FOR NO KEY UPDATE`: a row that is updated in other columns than its keys. -/
  | noKeyUpdate
  /-- `FOR UPDATE`: also a row that is inserted. -/
  | update
deriving DecidableEq

/-- The conflict table. -/
def LockMode.conflicts : LockMode → LockMode → Bool
  | .update, _ | _, .update => true
  | .noKeyUpdate, .noKeyUpdate => true
  | _, _ => false

/-- A request for one row. -/
structure LockRequest (Row : Type) where
  row : Row
  mode : LockMode
deriving DecidableEq

/-- Two requests cannot both be granted to different transactions. -/
def LockRequest.Conflicts {Row : Type} (r s : LockRequest Row) : Prop :=
  r.row = s.row ∧ r.mode.conflicts s.mode = true

instance {Row : Type} [DecidableEq Row] (r s : LockRequest Row) : Decidable (r.Conflicts s) :=
  inferInstanceAs (Decidable (_ ∧ _))

theorem LockMode.conflicts_comm (a b : LockMode) : a.conflicts b = b.conflicts a := by
  cases a <;> cases b <;> rfl

@[simp] theorem LockMode.conflicts_update (a : LockMode) : a.conflicts .update = true := by
  cases a <;> rfl

theorem LockRequest.Conflicts.symm {Row : Type} {r s : LockRequest Row} (h : r.Conflicts s) :
    s.Conflicts r :=
  ⟨h.1.symm, (LockMode.conflicts_comm _ _).trans h.2⟩

/-! ### Lists of requests -/

section EveryRequest

variable {α : Type} {P : List α → α → Prop} {before rs rs' : List α} {r : α}

/-- Every request, together with the requests before it, satisfies `P`. -/
def EveryRequest (P : List α → α → Prop) : List α → List α → Prop
  | _, [] => True
  | before, r :: rs => P before r ∧ EveryRequest P (before ++ [r]) rs

@[simp] theorem everyRequest_nil : EveryRequest P before [] := trivial

@[simp] theorem everyRequest_cons :
    EveryRequest P before (r :: rs) ↔ P before r ∧ EveryRequest P (before ++ [r]) rs := Iff.rfl

@[simp] theorem everyRequest_append :
    EveryRequest P before (rs ++ rs') ↔
      EveryRequest P before rs ∧ EveryRequest P (before ++ rs) rs' := by
  induction rs generalizing before with
  | nil => simp
  | cons r rs ih => simp [ih, and_assoc]

/-- A block of requests, each of which is fine after some of the others. -/
theorem everyRequest_of_forall
    (h : ∀ done r rest, rs = done ++ r :: rest → P (before ++ done) r) :
    EveryRequest P before rs := by
  induction rs generalizing before with
  | nil => trivial
  | cons r rs ih =>
    refine ⟨by simpa using h [] r rs rfl, ih fun done s rest hrs => ?_⟩
    have hshift := h (r :: done) s rest (by rw [hrs, List.cons_append])
    simpa using hshift

/-- A block of requests that are fine after some of each other. -/
theorem everyRequest_of_subset (h : ∀ r ∈ rs, ∀ between ⊆ rs, P (before ++ between) r) :
    EveryRequest P before rs :=
  everyRequest_of_forall fun done r rest hrs => h r (by simp [hrs]) done (by simp [hrs])

theorem EveryRequest.imp {Q : List α → α → Prop} (h : EveryRequest P before rs)
    (himp : ∀ before r, P before r → Q before r) : EveryRequest Q before rs := by
  induction rs generalizing before with
  | nil => trivial
  | cons r rs ih => exact ⟨himp _ _ h.1, ih h.2⟩

theorem EveryRequest.getElem? (h : EveryRequest P before rs) {n : ℕ} (hr : rs[n]? = some r) :
    P (before ++ rs.take n) r := by
  induction rs generalizing before n with
  | nil => simp at hr
  | cons s rs ih =>
    cases n with
    | zero =>
      obtain rfl : s = r := by simpa using hr
      simpa using h.1
    | succ n =>
      have htail := ih h.2 (n := n) (by simpa using hr)
      simpa using htail

end EveryRequest

/-! ### Transactions -/

/-- A transaction and how many of its requests were granted. -/
structure LockTxn (Kind : Type) where
  kind : Kind
  granted : ℕ
  live : Bool

/-- The transactions that have begun, in order. -/
abbrev LockState (Kind : Type) := List (LockTxn Kind)

/-- What can happen next. -/
inductive LockAction (Kind : Type)
  | begin (kind : Kind)
  /-- The next request of a transaction is granted. -/
  | acquire (i : ℕ)
  /-- A transaction commits or rolls back, at any point, and its locks are free. -/
  | finish (i : ℕ)

section Machine

variable {Kind Row : Type} (plan : Kind → List (LockRequest Row))

/-- The locks that a transaction holds. -/
def LockTxn.held (t : LockTxn Kind) : List (LockRequest Row) :=
  if t.live = true then (plan t.kind).take t.granted else []

/-- The request that a transaction makes next. -/
def LockTxn.next? (t : LockTxn Kind) : Option (LockRequest Row) :=
  if t.live = true then (plan t.kind)[t.granted]? else none

/-- The next request of `i` conflicts with a lock of `j`. -/
def WaitsFor (σ : LockState Kind) (i j : ℕ) : Prop :=
  i ≠ j ∧ ∃ t ∈ σ[i]?, ∃ r ∈ t.next? plan, ∃ u ∈ σ[j]?, ∃ s ∈ u.held plan, r.Conflicts s

instance [DecidableEq Row] (σ : LockState Kind) (i j : ℕ) : Decidable (WaitsFor plan σ i j) :=
  inferInstanceAs (Decidable (_ ∧ _))

/-- There is a cycle in the wait-for graph. -/
def Deadlocked (σ : LockState Kind) : Prop := ∃ i, Relation.TransGen (WaitsFor plan σ) i i

/-- One action. -/
def LockState.exec [DecidableEq Row] (σ : LockState Kind) :
    LockAction Kind → Option (LockState Kind)
  | .begin kind => some (σ ++ [⟨kind, 0, true⟩])
  | .acquire i =>
    if ∃ j < σ.length, WaitsFor plan σ i j then none
    else σ[i]?.map fun t => σ.set i { t with granted := t.granted + 1 }
  | .finish i => σ[i]?.map fun t => σ.set i { t with live := false }

/-- What any number of actions lead to. -/
def LockReaches [DecidableEq Row] : LockState Kind → Prop :=
  Relation.ReflTransGen (fun σ τ => ∃ act, σ.exec plan act = some τ) []

/-- Execute a schedule. -/
def LockState.run [DecidableEq Row] (σ : LockState Kind) :
    List (LockAction Kind) → Option (LockState Kind)
  | [] => some σ
  | act :: acts => (σ.exec plan act).bind fun τ => τ.run acts

variable {plan} {σ τ : LockState Kind} {i j : ℕ} {t u : LockTxn Kind} {r s : LockRequest Row}

theorem lockReaches_of_run [DecidableEq Row] (acts : List (LockAction Kind))
    (hσ : LockReaches plan σ) (hrun : σ.run plan acts = some τ) : LockReaches plan τ := by
  induction acts generalizing σ with
  | nil =>
    obtain rfl : σ = τ := by simpa [LockState.run] using hrun
    exact hσ
  | cons act acts ih =>
    obtain ⟨ρ, hexec, hrest⟩ := Option.bind_eq_some_iff.mp hrun
    exact ih (hσ.tail ⟨act, hexec⟩) hrest

/-! ### Exclusion -/

variable (plan) in
/-- Locks of different transactions do not conflict. -/
def Exclusive (σ : LockState Kind) : Prop :=
  ∀ (i j : ℕ) (t u : LockTxn Kind), σ[i]? = some t → σ[j]? = some u → i ≠ j →
    ∀ r ∈ t.held plan, ∀ s ∈ u.held plan, ¬ r.Conflicts s

/-- One transaction changes, and what it holds conflicts with nobody. -/
theorem Exclusive.set (h : Exclusive plan σ)
    (hfree : ∀ j u, j ≠ i → σ[j]? = some u → ∀ r ∈ t.held plan, ∀ s ∈ u.held plan,
      ¬ r.Conflicts s) : Exclusive plan (σ.set i t) := by
  intro a b v w ha hb hne r hr s hs
  rw [List.getElem?_set] at ha hb
  split at ha
  · obtain rfl : i = a := ‹_›
    rw [if_neg hne] at hb
    obtain rfl : t = v := by
      split at ha
      · exact Option.some_inj.mp ha
      · cases ha
    exact hfree b w (Ne.symm hne) hb r hr s hs
  · split at hb
    · obtain rfl : i = b := ‹_›
      obtain rfl : t = w := by
        split at hb
        · exact Option.some_inj.mp hb
        · cases hb
      exact fun hconflict => hfree a v hne ha s hs r hr hconflict.symm
    · exact h a b v w ha hb hne r hr s hs

theorem Exclusive.exec [DecidableEq Row] {act : LockAction Kind} (h : Exclusive plan σ)
    (hexec : σ.exec plan act = some τ) : Exclusive plan τ := by
  cases act with
  | «begin» kind =>
    obtain rfl := Option.some_inj.mp hexec
    intro a b v w ha hb hne r hr s hs
    -- the new transaction holds nothing
    have hold : ∀ {a : ℕ} {v : LockTxn Kind} {r : LockRequest Row},
        (σ ++ [⟨kind, 0, true⟩])[a]? = some v → r ∈ v.held plan → σ[a]? = some v := by
      intro a v r ha hr
      rw [List.getElem?_append] at ha
      split at ha
      · exact ha
      · obtain rfl := List.mem_singleton.mp (List.mem_of_getElem? ha)
        simp [LockTxn.held] at hr
    exact h a b v w (hold ha hr) (hold hb hs) hne r hr s hs
  | acquire i =>
    simp only [LockState.exec, Option.ite_none_left_eq_some] at hexec
    obtain ⟨hfree, hset⟩ := hexec
    obtain ⟨t, ht, rfl⟩ := Option.map_eq_some_iff.mp hset
    refine h.set fun j u hj hu r hr s hs hconflict => ?_
    by_cases hheld : r ∈ t.held plan
    · exact h i j t u ht hu (Ne.symm hj) r hheld s hs hconflict
    · have hnext : t.next? plan = some r := by
        by_cases hlive : t.live = true
        · simp only [LockTxn.held, hlive, if_true, List.take_add_one, List.mem_append] at hr hheld
          simpa [LockTxn.next?, hlive] using hr.resolve_left hheld
        · simp [LockTxn.held, hlive] at hr
      obtain ⟨hlength, -⟩ := List.getElem?_eq_some_iff.mp hu
      exact hfree ⟨j, hlength, Ne.symm hj, t, ht, r, hnext, u, hu, s, hs, hconflict⟩
  | finish i =>
    obtain ⟨t, ht, rfl⟩ := Option.map_eq_some_iff.mp hexec
    exact h.set fun j u hj hu r hr => by simp [LockTxn.held] at hr

theorem LockReaches.exclusive [DecidableEq Row] (h : LockReaches plan σ) : Exclusive plan σ := by
  induction h with
  | refl =>
    intro i j t u ht
    simp at ht
  | tail _ hstep ih =>
    obtain ⟨act, hexec⟩ := hstep
    exact ih.exec hexec

/-- Two transactions that hold one row for themselves are one. -/
theorem Exclusive.eq_of_update (h : Exclusive plan σ) {row : Row} (ht : σ[i]? = some t)
    (hu : σ[j]? = some u) (hrow : ⟨row, .update⟩ ∈ t.held plan)
    (hrow' : ⟨row, .update⟩ ∈ u.held plan) : i = j := by
  by_contra hne
  exact h i j t u ht hu hne _ hrow _ hrow' ⟨rfl, rfl⟩

/-- Nobody else holds a row that a transaction holds for itself. -/
theorem Exclusive.ne_row (h : Exclusive plan σ) {row : Row} (ht : σ[i]? = some t)
    (hu : σ[j]? = some u) (hij : i ≠ j) (hrow : ⟨row, .update⟩ ∈ t.held plan)
    (hs : s ∈ u.held plan) : s.row ≠ row := by
  rintro rfl
  exact h i j t u ht hu hij _ hrow s hs ⟨rfl, by rw [LockMode.conflicts_comm]; simp⟩

/-! ### Plans -/

/-- What every plan says about a request, of the next one and those before. -/
theorem LockTxn.of_next? {P : List (LockRequest Row) → LockRequest Row → Prop}
    (hplan : EveryRequest P [] (plan t.kind)) (hr : t.next? plan = some r) :
    P (t.held plan) r := by
  unfold LockTxn.next? at hr
  split at hr
  · next hlive =>
    have h := hplan.getElem? hr
    simpa [LockTxn.held, hlive] using h
  · cases hr

/-- What every plan says about a request, of one that was granted. -/
theorem LockTxn.of_mem_held {P : List (LockRequest Row) → LockRequest Row → Prop}
    (hplan : EveryRequest P [] (plan t.kind)) (hs : s ∈ t.held plan) :
    ∃ before, before ++ [s] <+: t.held plan ∧ P before s := by
  unfold LockTxn.held at hs ⊢
  split at hs
  · next hlive =>
    obtain ⟨n, hn⟩ := List.getElem?_of_mem hs
    rw [List.getElem?_take] at hn
    split at hn
    · next hlt =>
      refine ⟨(plan t.kind).take n, ?_, by simpa using hplan.getElem? hn⟩
      have htake : (plan t.kind).take n ++ [s] = (plan t.kind).take (n + 1) := by
        rw [List.take_add_one, hn]
        rfl
      rw [if_pos hlive, htake]
      exact List.take_prefix_take_left hlt
    · cases hn
  · simp at hs

end Machine

/-! ### Cycles -/

/-- A relation whose steps grow in a measure, as far as they go on, has no cycle. -/
theorem not_transGen_self {α β : Type} [Preorder β] {R : α → α → Prop} {f : α → β}
    (h : ∀ a b c, R a b → R b c → f a < f b) (a : α) : ¬ Relation.TransGen R a a := by
  have hgrows : ∀ {a b : α}, Relation.TransGen R a b → ∀ c, R b c → f a < f b := by
    intro a b hab
    induction hab with
    | single hstep => exact fun c hc => h _ _ c hstep hc
    | tail _ hlast ih => exact fun c hc => (ih _ hlast).trans (h _ _ c hlast hc)
  intro hcycle
  obtain ⟨b, hb, -⟩ := Relation.TransGen.head'_iff.mp hcycle
  exact lt_irrefl _ (hgrows hcycle b hb)

end NestApi.Txn
