import NestApi.Txn.Rely

/-!
# Statement rules

One rule a statement form, stated for the statement followed by the rest of its
program. Each rule hands over the interference that preceded the statement.
-/

namespace NestApi.Txn

open Program

variable {Db Lock Event Id Err Req α β γ : Type} [DecidableEq Id]
  {G : Guarantee Db Lock Event Id Req} {a : Agent Req} {c : Ctx Db Lock}
  {w : World Db Event Id Req} {Q : Except Err β → Ctx Db Lock → World Db Event Id Req → Prop}

/-- The postcondition of a part that the program continues with `k`. -/
def andThen (G : Guarantee Db Lock Event Id Req) (a : Agent Req)
    (k : α → Program Db Lock Event Id Err β)
    (Q : Except Err β → Ctx Db Lock → World Db Event Id Req → Prop) :
    Except Err α → Ctx Db Lock → World Db Event Id Req → Prop
  | .ok r, c, w => wp G a (k r) Q c w
  | .error e, c, w => Q (.error e) c w

theorem wp_bind {x : Program Db Lock Event Id Err α} {k : α → Program Db Lock Event Id Err β}
    (h : wp G a x (andThen G a k Q) c w) : wp G a (x >>= k) Q c w := by
  refine wp_handle (wp_mono ?_ h)
  rintro (e | r) c w hr
  · exact hr
  · exact hr

theorem wp_pure {r : β} (h : Q (.ok r) c w) :
    wp G a (pure r : Program Db Lock Event Id Err β) Q c w := h

theorem wp_select {f : Db → α} {k : α → Program Db Lock Event Id Err β}
    (h : ∀ w', Interf G a c.held w w' → wp G a (k (f (c.pend w'.db))) Q c w') :
    wp G a (select f >>= k) Q c w := h

theorem wp_selectObserved {ev : Db → Event} {f : Db → α}
    {k : α → Program Db Lock Event Id Err β}
    (h : ∀ w', Interf G a c.held w w' → G a c.held w' (ev (c.pend w'.db)) w'.db ∧
      wp G a (k (f (c.pend w'.db))) Q c (w'.push a (ev (c.pend w'.db)) w'.db)) :
    wp G a (selectObserved ev f >>= k) Q c w := h

theorem wp_emit {ev : Event} {k : Unit → Program Db Lock Event Id Err β}
    (h : ∀ w', Interf G a c.held w w' → G a c.held w' ev w'.db ∧
      wp G a (k ()) Q c (w'.push a ev w'.db)) :
    wp G a (emit ev >>= k) Q c w := h

theorem wp_now {k : ℕ → Program Db Lock Event Id Err β}
    (h : ∀ w', Interf G a c.held w w' → wp G a (k w'.now) Q c w') :
    wp G a (now >>= k) Q c w := h

theorem wp_sleepUntil {t : ℕ} {k : Unit → Program Db Lock Event Id Err β}
    (h : ∀ w', Interf G a c.held w w' → t ≤ w'.now → wp G a (k ()) Q c w') :
    wp G a (sleepUntil t >>= k) Q c w := h

theorem wp_freshId {k : Id → Program Db Lock Event Id Err β}
    (h : ∀ w', Interf G a c.held w w' → ∀ x, w'.issued.find? x = none →
      wp G a (k x) Q c (w'.issue x a.pid)) :
    wp G a (freshId >>= k) Q c w := h

theorem wp_lockRow {l : Lock} {k : Unit → Program Db Lock Event Id Err β}
    (h : ∀ w', Interf G a c.held w w' →
      wp G a (k ()) Q { c with held := fun m => m = l ∨ c.held m } w') :
    wp G a (lockRow l >>= k) Q c w := h

theorem wp_modify {f : Db → Db} {k : Unit → Program Db Lock Event Id Err β}
    (h : ∀ w', Interf G a c.held w w' →
      wp G a (k ()) Q { c with pend := f ∘ c.pend } w') :
    wp G a (modify f >>= k) Q c w := h

theorem wp_ensure {p : Prop} [Decidable p] {e : Err} {k : Unit → Program Db Lock Event Id Err β}
    (hok : p → wp G a (k ()) Q c w) (herr : ¬p → Q (.error e) c w) :
    wp G a (ensure p e >>= k) Q c w := by
  refine wp_bind ?_
  by_cases hp : p
  · rw [ensure, if_pos hp]
    exact hok hp
  · rw [ensure, if_neg hp]
    exact herr hp

/-- An optional part: judged where it runs, skipped where it does not. -/
theorem wp_onlyIf {p : Prop} [Decidable p] {x : Program Db Lock Event Id Err Unit}
    {k : Unit → Program Db Lock Event Id Err β}
    (hyes : p → wp G a (x >>= k) Q c w) (hno : ¬p → wp G a (k ()) Q c w) :
    wp G a (onlyIf p x >>= k) Q c w := by
  by_cases hp : p
  · rw [onlyIf, if_pos hp]
    exact hyes hp
  · rw [onlyIf, if_neg hp]
    exact wp_bind (hno hp)

theorem wp_orThrow {x : Option α} {e : Err} {k : α → Program Db Lock Event Id Err β}
    (hok : ∀ r, x = some r → wp G a (k r) Q c w) (herr : x = none → Q (.error e) c w) :
    wp G a (orThrow x e >>= k) Q c w := by
  cases x with
  | none => exact wp_bind (herr rfl)
  | some r => exact wp_bind (hok r rfl)

/-- Locking a list of rows: afterwards all of them are held. -/
theorem wp_lockRows {ls : List Lock} {k : Unit → Program Db Lock Event Id Err β}
    (h : ∀ w', Interf G a c.held w w' →
      wp G a (k ()) Q { c with held := fun m => m ∈ ls ∨ c.held m } w') :
    wp G a (lockRows ls >>= k) Q c w := by
  refine wp_bind ?_
  induction ls generalizing c w with
  | nil => simpa [lockRows, wp, andThen] using h w .refl
  | cons l ls ih =>
    intro w' hw
    refine ih fun w'' hw' => ?_
    have hheld : (fun m => m ∈ ls ∨ m = l ∨ c.held m) = fun m => m ∈ l :: ls ∨ c.held m := by
      funext m
      simp only [List.mem_cons, eq_iff_iff]
      tauto
    rw [hheld]
    exact h w'' (hw.trans (hw'.mono fun m hm => .inr hm))

/-- A loop whose rounds each begin and end outside a transaction. `J` says what holds once the
given elements are done. -/
theorem wp_forEach {xs : List γ} {f : γ → Program Db Lock Event Id Err Unit}
    {k : Unit → Program Db Lock Event Id Err β} {J : List γ → World Db Event Id Req → Prop}
    (herr : ∀ e c w, Q (.error e) c w) (hstart : J [] w)
    (hround : ∀ ys x w', J ys w' → wp G a (f x) (fun r c w'' =>
      (∃ e, r = .error e) ∨ c = Ctx.start ∧ J (ys ++ [x]) w'') Ctx.start w')
    (hend : ∀ w', J xs w' → wp G a (k ()) Q Ctx.start w') :
    wp G a (forEach xs f >>= k) Q Ctx.start w := by
  have hloop : ∀ (zs ys : List γ) (w' : World Db Event Id Req), ys ++ zs = xs → J ys w' →
      wp G a (forEach zs f) (andThen G a k Q) Ctx.start w' := by
    intro zs
    induction zs with
    | nil =>
      intro ys w' hys hJ
      obtain rfl : ys = xs := by simpa using hys
      exact hend w' hJ
    | cons z zs ih =>
      intro ys w' hys hJ
      refine wp_bind (wp_mono ?_ (hround ys z w' hJ))
      rintro (e | r) c w'' hafter
      · exact herr e c w''
      · rcases hafter with ⟨e, he⟩ | ⟨rfl, hJ'⟩
        · simp at he
        · exact ih (ys ++ [z]) w'' (by simpa using hys) hJ'
  exact wp_bind (hloop xs [] w rfl hstart)

/-- The postcondition of a part whose failures are handled. -/
def rescue (G : Guarantee Db Lock Event Id Req) (a : Agent Req)
    (handler : Err → Program Db Lock Event Id Err β)
    (Q : Except Err β → Ctx Db Lock → World Db Event Id Req → Prop) :
    Except Err β → Ctx Db Lock → World Db Event Id Req → Prop
  | .ok r, c, w => Q (.ok r) c w
  | .error e, c, w => wp G a (handler e) Q c w

theorem wp_catchError {x : Program Db Lock Event Id Err β}
    {handler : Err → Program Db Lock Event Id Err β}
    (h : wp G a x (rescue G a handler Q) c w) : wp G a (catchError x handler) Q c w := by
  refine wp_handle (wp_mono ?_ h)
  rintro (e | r) c w hr
  · exact hr
  · exact hr

/-! ### Quiet programs -/

/-- The program locks nothing, writes nothing and reports nothing. -/
def Quiet : Program Db Lock Event Id Err α → Prop
  | .done _ | .fail _ => True
  | .read k => ∀ db, Quiet (k db)
  | .clock k => ∀ t, Quiet (k t)
  | .sleep _ k => Quiet k
  | .fresh k => ∀ x, Quiet (k x)
  | .observe _ _ | .lock _ _ | .write _ _ | .commit _ _ | .rollback _ => False

omit [DecidableEq Id] in
theorem Quiet.bind {x : Program Db Lock Event Id Err α} {k : α → Program Db Lock Event Id Err β}
    (hx : Quiet x) (hk : ∀ r, Quiet (k r)) : Quiet (x >>= k) := by
  change Quiet (x.bind k)
  unfold Program.bind
  induction x with
  | done r => exact hk r
  | fail => trivial
  | read _ ih => exact fun db => ih db (hx db)
  | clock _ ih => exact fun t => ih t (hx t)
  | sleep _ _ ih => exact ih hx
  | fresh _ ih => exact fun x => ih x (hx x)
  | observe | lock | write | commit | rollback => exact hx.elim

omit [DecidableEq Id] in
theorem quiet_select {f : Db → α} : Quiet (select f : Program Db Lock Event Id Err α) :=
  fun _ => trivial

omit [DecidableEq Id] in
theorem quiet_freshId : Quiet (freshId : Program Db Lock Event Id Err Id) := fun _ => trivial

omit [DecidableEq Id] in
theorem quiet_ensure {p : Prop} [Decidable p] {e : Err} :
    Quiet (ensure p e : Program Db Lock Event Id Err Unit) := by
  unfold ensure
  split <;> trivial

omit [DecidableEq Id] in
theorem quiet_orThrow {x : Option α} {e : Err} :
    Quiet (orThrow x e : Program Db Lock Event Id Err α) := by
  cases x <;> trivial

omit [DecidableEq Id] in
theorem quiet_onlyIf {p : Prop} [Decidable p] {x : Program Db Lock Event Id Err Unit}
    (hx : Quiet x) : Quiet (onlyIf p x) := by
  unfold onlyIf
  split
  · exact hx
  · trivial

/-- Whatever a quiet program answers, only time and the others moved. -/
theorem wp_quiet {x : Program Db Lock Event Id Err α} {k : α → Program Db Lock Event Id Err β}
    (hx : Quiet x) (hok : ∀ r w', Interf G a c.held w w' → wp G a (k r) Q c w')
    (herr : ∀ e w', Q (.error e) c w') : wp G a (x >>= k) Q c w := by
  refine wp_bind ?_
  induction x generalizing w with
  | done r => exact hok r w .refl
  | fail e => exact herr e w
  | read _ ih => exact fun w' hw => ih _ (hx _) fun r w'' hw' => hok r w'' (hw.trans hw')
  | clock _ ih => exact fun w' hw => ih _ (hx _) fun r w'' hw' => hok r w'' (hw.trans hw')
  | sleep _ _ ih => exact fun w' hw _ => ih hx fun r w'' hw' => hok r w'' (hw.trans hw')
  | fresh _ ih =>
    exact fun w' hw x hfresh => ih _ (hx _) fun r w'' hw' => hok r w'' ((hw.draw hfresh).trans hw')
  | observe | lock | write | commit | rollback => exact hx.elim

/-! ### Transactions -/

/-- The postcondition of a transaction's body. A failure rolls back, an answer
commits: the event must be within the guarantee under the locks held then. -/
def atEnd (G : Guarantee Db Lock Event Id Req) (a : Agent Req) (ev : α → Event)
    (Q : Except Err α → Ctx Db Lock → World Db Event Id Req → Prop) :
    Except Err α → Ctx Db Lock → World Db Event Id Req → Prop
  | .ok r, c, w => ∀ w', Interf G a c.held w w' → G a c.held w' (ev r) (c.pend w'.db) ∧
      Q (.ok r) Ctx.start (w'.push a (ev r) (c.pend w'.db))
  | .error e, c, w => ∀ w', Interf G a c.held w w' → Q (.error e) Ctx.start w'

theorem wp_transaction {body : Program Db Lock Event Id Err α} {ev : α → Event}
    {Q : Except Err α → Ctx Db Lock → World Db Event Id Req → Prop}
    (h : wp G a body (atEnd G a ev Q) c w) : wp G a (transaction body ev) Q c w := by
  refine wp_handle (wp_mono ?_ h)
  rintro (e | r) c w hr
  · exact hr
  · exact hr

/-- A program whose last event is allowed in every situation needs no more than
the judgement of its body. -/
theorem wp_report {x : Program Db Lock Event Id Err α} {ev : Except Err α → Event}
    (h : wp G a x (fun r c w => ∀ w', Interf G a c.held w w' → G a c.held w' (ev r) w'.db) c w) :
    wp G a (x.report ev) (fun _ _ _ => True) c w :=
  wp_handle (wp_mono (fun _ _ _ hr w' hw => ⟨hr w' hw, trivial⟩) h)

end NestApi.Txn
