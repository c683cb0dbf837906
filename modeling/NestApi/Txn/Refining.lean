import NestApi.Txn.Soundness

/-!
# Refining a guarantee

A system that is judged within one guarantee can be judged within a stronger one request by
request. Where the old guarantee already says enough about a request, its judgement carries
over. Elsewhere a second judgement is made under a guarantee of its own, and the two are put
together. A guarantee that only asks for a property of the committed states has a judgement
without worlds: every pending write keeps the property.
-/

namespace NestApi.Txn

open Program

variable {Db Lock Event Id Err Req α β : Type} {P : Db → Prop} {Q R : α → Prop}

/-! ### Two guarantees -/

section Guarantees

variable [DecidableEq Id] {G H : Guarantee Db Lock Event Id Req} {a : Agent Req}
  {held : Lock → Prop} {w w' : World Db Event Id Req}

/-- The guarantee `H` allows no more than `G`, for every process. -/
def Guarantee.Within (H G : Guarantee Db Lock Event Id Req) : Prop :=
  ∀ (b : Agent Req) (L : Lock → Prop) (w : World Db Event Id Req) (ev : Event) (db : Db),
    H b L w ev db → G b L w ev db

/-- What both guarantees allow. -/
def Guarantee.both (G H : Guarantee Db Lock Event Id Req) : Guarantee Db Lock Event Id Req :=
  fun b L w ev db => G b L w ev db ∧ H b L w ev db

omit [DecidableEq Id] in
theorem Guarantee.both_within_left : (G.both H).Within G := fun _ _ _ _ _ h => h.1

omit [DecidableEq Id] in
theorem Guarantee.both_within_right : (G.both H).Within H := fun _ _ _ _ _ h => h.2

theorem Move.weaken (hsub : H.Within G) (h : Move H w w') : Move G w w' := by
  cases h with
  | tick n => exact .tick n
  | issue x p hx => exact .issue x p hx
  | act b L ev db h => exact .act b L ev db (hsub b L w ev db h)

theorem EnvStep.weaken (hsub : H.Within G) (h : EnvStep H a held w w') :
    EnvStep G a held w w' := by
  cases h with
  | tick n => exact .tick n
  | issue x p hx => exact .issue x p hx
  | other b L ev db hpid hdisjoint h =>
    exact .other b L ev db hpid hdisjoint (hsub b L w ev db h)
  | own ev h => exact .own ev (hsub a _ w ev w.db h)

theorem Interf.weaken (hsub : H.Within G) (h : Interf H a held w w') : Interf G a held w w' :=
  Relation.ReflTransGen.mono (fun _ _ => EnvStep.weaken hsub) _ _ h

theorem Moves.weaken (hsub : H.Within G) (h : Moves H w w') : Moves G w w' :=
  Relation.ReflTransGen.mono (fun _ _ => Move.weaken hsub) _ _ h

variable {c : Ctx Db Lock} {x : Program Db Lock Event Id Err α}
  {S T : Except Err α → Ctx Db Lock → World Db Event Id Req → Prop}

/-- A judgement carries over to a stronger guarantee that says nothing more about the
process. -/
theorem wp_strengthen (hsub : H.Within G)
    (hown : ∀ L w ev db, G a L w ev db → H a L w ev db) (h : wp G a x S c w) :
    wp H a x S c w := by
  induction x generalizing c w with
  | done | fail => exact h
  | read k ih => exact fun w' hw => ih _ (h w' (hw.weaken hsub))
  | observe ev k ih =>
    intro w' hw
    obtain ⟨hG, hrest⟩ := h w' (hw.weaken hsub)
    exact ⟨hown _ _ _ _ hG, ih _ hrest⟩
  | clock k ih => exact fun w' hw => ih _ (h w' (hw.weaken hsub))
  | sleep t k ih => exact fun w' hw ht => ih (h w' (hw.weaken hsub) ht)
  | fresh k ih => exact fun w' hw x hx => ih _ (h w' (hw.weaken hsub) x hx)
  | lock l k ih => exact fun w' hw => ih (h w' (hw.weaken hsub))
  | write f k ih => exact fun w' hw => ih (h w' (hw.weaken hsub))
  | commit ev k ih =>
    intro w' hw
    obtain ⟨hG, hrest⟩ := h w' (hw.weaken hsub)
    exact ⟨hown _ _ _ _ hG, ih hrest⟩
  | rollback k ih => exact fun w' hw => ih (h w' (hw.weaken hsub))

/-- Two judgements of one program make one within both guarantees. -/
theorem wp_both (h : wp G a x S c w) (h' : wp H a x T c w) :
    wp (G.both H) a x (fun r c w => S r c w ∧ T r c w) c w := by
  induction x generalizing c w with
  | done | fail => exact ⟨h, h'⟩
  | read k ih =>
    intro w' hw
    exact ih _ (h w' (hw.weaken Guarantee.both_within_left))
      (h' w' (hw.weaken Guarantee.both_within_right))
  | observe ev k ih =>
    intro w' hw
    obtain ⟨hG, hrest⟩ := h w' (hw.weaken Guarantee.both_within_left)
    obtain ⟨hH, hrest'⟩ := h' w' (hw.weaken Guarantee.both_within_right)
    exact ⟨⟨hG, hH⟩, ih _ hrest hrest'⟩
  | clock k ih =>
    intro w' hw
    exact ih _ (h w' (hw.weaken Guarantee.both_within_left))
      (h' w' (hw.weaken Guarantee.both_within_right))
  | sleep t k ih =>
    intro w' hw ht
    exact ih (h w' (hw.weaken Guarantee.both_within_left) ht)
      (h' w' (hw.weaken Guarantee.both_within_right) ht)
  | fresh k ih =>
    intro w' hw x hx
    exact ih _ (h w' (hw.weaken Guarantee.both_within_left) x hx)
      (h' w' (hw.weaken Guarantee.both_within_right) x hx)
  | lock l k ih =>
    intro w' hw
    exact ih (h w' (hw.weaken Guarantee.both_within_left))
      (h' w' (hw.weaken Guarantee.both_within_right))
  | write f k ih =>
    intro w' hw
    exact ih (h w' (hw.weaken Guarantee.both_within_left))
      (h' w' (hw.weaken Guarantee.both_within_right))
  | commit ev k ih =>
    intro w' hw
    obtain ⟨hG, hrest⟩ := h w' (hw.weaken Guarantee.both_within_left)
    obtain ⟨hH, hrest'⟩ := h' w' (hw.weaken Guarantee.both_within_right)
    exact ⟨⟨hG, hH⟩, ih hrest hrest'⟩
  | rollback k ih =>
    intro w' hw
    exact ih (h w' (hw.weaken Guarantee.both_within_left))
      (h' w' (hw.weaken Guarantee.both_within_right))

end Guarantees
/-! ### Properties that every write keeps -/

/-- Every pending write keeps `P`, in a program whose queries see states with `P`. `Q` holds of
the answer. -/
def Keeps (P : Db → Prop) :
    Program Db Lock Event Id Err α → (α → Prop) → Prop
  | .done r, Q => Q r
  | .fail _, _ => True
  | .read k, Q | .observe _ k, Q => ∀ db, P db → Keeps P (k db) Q
  | .clock k, Q => ∀ t, Keeps P (k t) Q
  | .fresh k, Q => ∀ x, Keeps P (k x) Q
  | .sleep _ k, Q | .lock _ k, Q | .commit _ k, Q | .rollback k, Q => Keeps P k Q
  | .write f k, Q => (∀ db, P db → P (f db)) ∧ Keeps P k Q

theorem Keeps.handle {x : Program Db Lock Event Id Err α}
    {f : Except Err α → Program Db Lock Event Id Err β} {R : β → Prop} (h : Keeps P x Q)
    (hok : ∀ r, Q r → Keeps P (f (.ok r)) R) (herr : ∀ e, Keeps P (f (.error e)) R) :
    Keeps P (x.handle f) R := by
  induction x with
  | done r => exact hok r h
  | fail e => exact herr e
  | read k ih | observe ev k ih => exact fun db hdb => ih db (h db hdb)
  | clock k ih => exact fun t => ih t (h t)
  | fresh k ih => exact fun x => ih x (h x)
  | sleep t k ih | lock l k ih | commit ev k ih | rollback k ih => exact ih h
  | write g k ih => exact ⟨h.1, ih h.2⟩

theorem Keeps.bind {x : Program Db Lock Event Id Err α}
    {k : α → Program Db Lock Event Id Err β} {R : β → Prop} (h : Keeps P x Q)
    (hk : ∀ r, Q r → Keeps P (k r) R) : Keeps P (x >>= k) R :=
  h.handle hk fun _ => trivial

theorem Keeps.mono {x : Program Db Lock Event Id Err α} (h : Keeps P x Q)
    (hQR : ∀ r, Q r → R r) : Keeps P x R := by
  have hbind : Keeps P (x >>= pure) R := h.bind hQR
  rwa [bind_pure] at hbind

theorem Keeps.transaction {x : Program Db Lock Event Id Err α} {ev : α → Event}
    (h : Keeps P x Q) : Keeps P (transaction x ev) Q :=
  h.handle (fun _ hr => hr) fun _ => trivial

theorem keeps_select {f : Db → α} :
    Keeps P (select f : Program Db Lock Event Id Err α) fun r => ∃ db, P db ∧ f db = r :=
  fun db hdb => ⟨db, hdb, rfl⟩

theorem keeps_modify {f : Db → Db} (h : ∀ db, P db → P (f db)) :
    Keeps P (modify f : Program Db Lock Event Id Err Unit) fun _ => True :=
  ⟨h, trivial⟩

theorem keeps_ensure {p : Prop} [Decidable p] {e : Err} :
    Keeps P (ensure p e : Program Db Lock Event Id Err Unit) fun _ => p := by
  unfold ensure
  split
  · assumption
  · trivial

theorem keeps_orThrow {x : Option α} {e : Err} :
    Keeps P (orThrow x e : Program Db Lock Event Id Err α) fun r => x = some r := by
  cases x with
  | none => trivial
  | some r => exact rfl

theorem keeps_lockRows {ls : List Lock} :
    Keeps P (lockRows ls : Program Db Lock Event Id Err Unit) fun _ => True := by
  induction ls with
  | nil => trivial
  | cons l ls ih => exact ih

/-- A program that writes nothing keeps everything. -/
theorem Quiet.keeps {x : Program Db Lock Event Id Err α} (h : Quiet x) :
    Keeps P x fun _ => True := by
  induction x with
  | done | fail => trivial
  | read k ih => exact fun db _ => ih db (h db)
  | clock k ih => exact fun t => ih t (h t)
  | fresh k ih => exact fun x => ih x (h x)
  | sleep t k ih => exact ih h
  | observe | lock | write | commit | rollback => exact h.elim

/-! ### From writes to worlds -/

section Soundness

variable [DecidableEq Id]

/-- Whatever a process commits, it keeps `P`. -/
def keeping (Lock Event Id Req : Type) (P : Db → Prop) : Guarantee Db Lock Event Id Req :=
  fun _ _ w _ db => P w.db → P db

variable {a : Agent Req} {held : Lock → Prop} {w w' : World Db Event Id Req}

theorem Interf.of_keeping (hw : Interf (keeping Lock Event Id Req P) a held w w') (h : P w.db) :
    P w'.db := by
  refine hw.invariant (P := fun v => P v.db) (fun {v v'} hv hmove => ?_) h
  cases hmove with
  | tick n => exact hv
  | issue x p hx => simpa using hv
  | act b L ev db hstep => exact hstep hv

/-- Writes that keep a property, one by one, make commits that keep it. -/
theorem Keeps.wp {x : Program Db Lock Event Id Err α} {c : Ctx Db Lock} (h : Keeps P x Q)
    (hpend : ∀ db, P db → P (c.pend db)) (hw : P w.db) :
    wp (keeping Lock Event Id Req P) a x (fun _ _ _ => True) c w := by
  induction x generalizing c w with
  | done | fail => trivial
  | read k ih =>
    intro w' hw'
    have hkept := hw'.of_keeping hw
    exact ih _ (h _ (hpend _ hkept)) hpend hkept
  | observe ev k ih =>
    intro w' hw'
    have hkept := hw'.of_keeping hw
    exact ⟨id, ih _ (h _ (hpend _ hkept)) hpend hkept⟩
  | clock k ih => exact fun w' hw' => ih _ (h _) hpend (hw'.of_keeping hw)
  | sleep t k ih => exact fun w' hw' _ => ih h hpend (hw'.of_keeping hw)
  | fresh k ih => exact fun w' hw' x _ => ih _ (h _) hpend (by simpa using hw'.of_keeping hw)
  | lock l k ih => exact fun w' hw' => ih h hpend (hw'.of_keeping hw)
  | write f k ih =>
    exact fun w' hw' => ih h.2 (fun db hdb => h.1 _ (hpend db hdb)) (hw'.of_keeping hw)
  | commit ev k ih =>
    exact fun w' hw' => ⟨hpend _, ih h (fun _ hdb => hdb) (hpend _ (hw'.of_keeping hw))⟩
  | rollback k ih => exact fun w' hw' => ih h (fun _ hdb => hdb) (hw'.of_keeping hw)

end Soundness

end NestApi.Txn
