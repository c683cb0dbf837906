import NestApi.Txn.Machine

/-!
# Rely and guarantee

A guarantee says what a process may do in one event, given the locks it holds. A
program is judged one process at a time by a weakest precondition in which every
statement is preceded by any number of events of other processes, each within the
guarantee and under locks disjoint from the program's own. Soundness turns these
separate judgements into a simulation: every run of the machine moves the shared
world only by steps of the guarantee.
-/

namespace NestApi.Txn

variable {Db Lock Event Id Err Req α β : Type} [DecidableEq Id]

/-- What a process holding some locks may append to a world: an event and the
committed database after it. -/
abbrev Guarantee (Db Lock Event Id Req : Type) :=
  Agent Req → (Lock → Prop) → World Db Event Id Req → Event → Db → Prop

/-- The abstract system: time passes, identifiers are drawn, and events happen
within the guarantee. -/
inductive Move (G : Guarantee Db Lock Event Id Req) :
    World Db Event Id Req → World Db Event Id Req → Prop
  | tick {w} (n : ℕ) : Move G w (w.tick n)
  | issue {w} (x : Id) (p : ℕ) (hx : w.issued.find? x = none) : Move G w (w.issue x p)
  | act {w} (a : Agent Req) (held : Lock → Prop) (ev : Event) (db : Db)
      (h : G a held w ev db) : Move G w (w.push a ev db)

/-- What can happen between two statements of `a`: a move of another process whose
locks are disjoint from those `a` holds, or an event of `a` that writes nothing and needs
no lock. -/
inductive EnvStep (G : Guarantee Db Lock Event Id Req) (a : Agent Req) (held : Lock → Prop) :
    World Db Event Id Req → World Db Event Id Req → Prop
  | tick {w} (n : ℕ) : EnvStep G a held w (w.tick n)
  | issue {w} (x : Id) (p : ℕ) (hx : w.issued.find? x = none) : EnvStep G a held w (w.issue x p)
  | other {w} (b : Agent Req) (others : Lock → Prop) (ev : Event) (db : Db)
      (hpid : b.pid ≠ a.pid) (hdisjoint : ∀ l, held l → ¬ others l)
      (h : G b others w ev db) : EnvStep G a held w (w.push b ev db)
  | own {w} (ev : Event) (h : G a (fun _ => False) w ev w.db) :
      EnvStep G a held w (w.push a ev w.db)

/-- Any number of such steps. -/
def Interf (G : Guarantee Db Lock Event Id Req) (a : Agent Req) (held : Lock → Prop) :
    World Db Event Id Req → World Db Event Id Req → Prop :=
  Relation.ReflTransGen (EnvStep G a held)

section Interference

variable {G : Guarantee Db Lock Event Id Req} {a : Agent Req} {held held' : Lock → Prop}
  {w w' w'' : World Db Event Id Req}

theorem EnvStep.move (h : EnvStep G a held w w') : Move G w w' := by
  cases h with
  | tick n => exact .tick n
  | issue x p hx => exact .issue x p hx
  | other b others ev db _ _ h => exact .act b others ev db h
  | own ev h => exact .act a _ ev _ h

theorem EnvStep.mono (hsub : ∀ l, held l → held' l) (h : EnvStep G a held' w w') :
    EnvStep G a held w w' := by
  cases h with
  | tick n => exact .tick n
  | issue x p hx => exact .issue x p hx
  | other b others ev db hpid hdisjoint h =>
    exact .other b others ev db hpid (fun l hl => hdisjoint l (hsub l hl)) h
  | own ev h => exact .own ev h

theorem Interf.refl : Interf G a held w w := Relation.ReflTransGen.refl

theorem Interf.trans (h : Interf G a held w w') (h' : Interf G a held w' w'') :
    Interf G a held w w'' := Relation.ReflTransGen.trans h h'

/-- Holding more locks means less interference. -/
theorem Interf.mono (hsub : ∀ l, held l → held' l) (h : Interf G a held' w w') :
    Interf G a held w w' :=
  Relation.ReflTransGen.mono (fun _ _ => EnvStep.mono hsub) _ _ h

/-- What happened under locks could happen without them. -/
theorem Interf.unlocked (h : Interf G a held w w') : Interf G a (fun _ => False) w w' :=
  h.mono fun _ hl => hl.elim

/-- Own events without a write count as interference. -/
theorem Interf.own {ev : Event} (h : Interf G a held w w')
    (hG : G a (fun _ => False) w' ev w'.db) :
    Interf G a held w (w'.push a ev w'.db) :=
  Relation.ReflTransGen.tail h (.own ev hG)

/-- Own draws count as interference. -/
theorem Interf.draw {x : Id} {p : ℕ} (h : Interf G a held w w')
    (hx : w'.issued.find? x = none) : Interf G a held w (w'.issue x p) :=
  Relation.ReflTransGen.tail h (.issue x p hx)

/-- A fact that no single step destroys survives any number of them. -/
theorem Interf.stable {P : World Db Event Id Req → Prop}
    (hstep : ∀ {w w'}, P w → EnvStep G a held w w' → P w') (h : Interf G a held w w') (hP : P w) :
    P w' := by
  induction h with
  | refl => exact hP
  | tail _ hlast ih => exact hstep ih hlast

/-- A fact that every move keeps survives interference. -/
theorem Interf.invariant {P : World Db Event Id Req → Prop}
    (hstep : ∀ {w w'}, P w → Move G w w' → P w') (h : Interf G a held w w') (hP : P w) : P w' :=
  h.stable (fun hw hmove => hstep hw hmove.move) hP

theorem Move.log_suffix (h : Move G w w') : w.log <:+ w'.log := by
  cases h with
  | tick | issue => exact List.suffix_refl _
  | act => exact List.suffix_cons _ _

theorem Move.init_eq (h : Move G w w') : w'.init = w.init := by
  cases h <;> rfl

theorem Interf.log_suffix (h : Interf G a held w w') : w.log <:+ w'.log :=
  h.invariant (P := fun v => w.log <:+ v.log) (fun hv hmove => hv.trans hmove.log_suffix)
    (List.suffix_refl _)

theorem Interf.init_eq (h : Interf G a held w w') : w'.init = w.init :=
  h.invariant (P := fun v => v.init = w.init) (fun hv hmove => hmove.init_eq.trans hv) rfl

/-- Interference continues the history. -/
theorem Interf.extends (h : Interf G a held w w') : w.Extends w' := ⟨h.init_eq, h.log_suffix⟩

theorem Interf.since {n : ℕ} {db : Db} (h : Interf G a held w w') (hdb : w.Since n db) :
    w'.Since n db := h.extends.since hdb

/-- Time does not run backwards. -/
theorem Interf.now_le (h : Interf G a held w w') : w.now ≤ w'.now := by
  refine h.invariant (P := fun v => w.now ≤ v.now) (fun {v v'} hv hmove => ?_) (Nat.le_refl _)
  cases hmove with
  | tick n => exact Nat.le_trans hv (Nat.le_add_right _ _)
  | issue | act => exact hv

end Interference

/-- What a program carries between two statements. -/
structure Ctx (Db Lock : Type) where
  held : Lock → Prop
  pend : Db → Db

/-- No lock held, nothing written. -/
def Ctx.start : Ctx Db Lock := ⟨fun _ => False, id⟩

/-- `wp G a x Q c w`: started in context `c` and world `w`, every event of `x` is
within the guarantee and every end of `x` satisfies `Q`, whatever the others do. -/
def wp (G : Guarantee Db Lock Event Id Req) (a : Agent Req) :
    Program Db Lock Event Id Err α → (Except Err α → Ctx Db Lock → World Db Event Id Req → Prop) →
    Ctx Db Lock → World Db Event Id Req → Prop
  | .done r, Q, c, w => Q (.ok r) c w
  | .fail e, Q, c, w => Q (.error e) c w
  | .read k, Q, c, w => ∀ w', Interf G a c.held w w' → wp G a (k (c.pend w'.db)) Q c w'
  | .observe ev k, Q, c, w => ∀ w', Interf G a c.held w w' →
      G a c.held w' (ev (c.pend w'.db)) w'.db ∧
      wp G a (k (c.pend w'.db)) Q c (w'.push a (ev (c.pend w'.db)) w'.db)
  | .clock k, Q, c, w => ∀ w', Interf G a c.held w w' → wp G a (k w'.now) Q c w'
  | .sleep t k, Q, c, w => ∀ w', Interf G a c.held w w' → t ≤ w'.now → wp G a k Q c w'
  | .fresh k, Q, c, w => ∀ w', Interf G a c.held w w' → ∀ x, w'.issued.find? x = none →
      wp G a (k x) Q c (w'.issue x a.pid)
  | .lock l k, Q, c, w => ∀ w', Interf G a c.held w w' →
      wp G a k Q { c with held := fun m => m = l ∨ c.held m } w'
  | .write f k, Q, c, w => ∀ w', Interf G a c.held w w' →
      wp G a k Q { c with pend := f ∘ c.pend } w'
  | .commit ev k, Q, c, w => ∀ w', Interf G a c.held w w' →
      G a c.held w' ev (c.pend w'.db) ∧ wp G a k Q Ctx.start (w'.push a ev (c.pend w'.db))
  | .rollback k, Q, c, w => ∀ w', Interf G a c.held w w' → wp G a k Q Ctx.start w'

section Rules

variable {G : Guarantee Db Lock Event Id Req} {a : Agent Req}
  {c : Ctx Db Lock} {w w' : World Db Event Id Req}

theorem wp_mono {x : Program Db Lock Event Id Err α}
    {Q R : Except Err α → Ctx Db Lock → World Db Event Id Req → Prop}
    (hQR : ∀ r c w, Q r c w → R r c w) (h : wp G a x Q c w) : wp G a x R c w := by
  induction x generalizing c w with
  | done r => exact hQR _ _ _ h
  | fail e => exact hQR _ _ _ h
  | read k ih => exact fun w' hw => ih _ (h w' hw)
  | observe ev k ih => exact fun w' hw => ⟨(h w' hw).1, ih _ (h w' hw).2⟩
  | clock k ih => exact fun w' hw => ih _ (h w' hw)
  | sleep t k ih => exact fun w' hw ht => ih (h w' hw ht)
  | fresh k ih => exact fun w' hw x hx => ih _ (h w' hw x hx)
  | lock l k ih => exact fun w' hw => ih (h w' hw)
  | write f k ih => exact fun w' hw => ih (h w' hw)
  | commit ev k ih => exact fun w' hw => ⟨(h w' hw).1, ih (h w' hw).2⟩
  | rollback k ih => exact fun w' hw => ih (h w' hw)

/-- The judgement of a composition is the judgement of its parts. -/
theorem wp_handle {x : Program Db Lock Event Id Err α}
    {f : Except Err α → Program Db Lock Event Id Err β}
    {Q : Except Err β → Ctx Db Lock → World Db Event Id Req → Prop}
    (h : wp G a x (fun r c w => wp G a (f r) Q c w) c w) : wp G a (x.handle f) Q c w := by
  induction x generalizing c w with
  | done r => exact h
  | fail e => exact h
  | read k ih => exact fun w' hw => ih _ (h w' hw)
  | observe ev k ih => exact fun w' hw => ⟨(h w' hw).1, ih _ (h w' hw).2⟩
  | clock k ih => exact fun w' hw => ih _ (h w' hw)
  | sleep t k ih => exact fun w' hw ht => ih (h w' hw ht)
  | fresh k ih => exact fun w' hw x hx => ih _ (h w' hw x hx)
  | lock l k ih => exact fun w' hw => ih (h w' hw)
  | write f k ih => exact fun w' hw => ih (h w' hw)
  | commit ev k ih => exact fun w' hw => ⟨(h w' hw).1, ih (h w' hw).2⟩
  | rollback k ih => exact fun w' hw => ih (h w' hw)

/-- A judgement without a claim about the end survives interference. -/
theorem wp_interf {x : Program Db Lock Event Id Err α} (hw : Interf G a c.held w w')
    (h : wp G a x (fun _ _ _ => True) c w) : wp G a x (fun _ _ _ => True) c w' := by
  cases x with
  | done | fail => trivial
  | read | observe | clock | sleep | fresh | lock | write | commit | rollback =>
    exact fun w'' hw'' => h w'' (hw.trans hw'')

end Rules

end NestApi.Txn
