import NestApi.Txn.Rules

/-!
# Soundness of the separate judgements

A protocol is a guarantee with an invariant that its moves keep. When every
request's program is judged within the guarantee, a run of the machine is a run of
the abstract system: this is the simulation every claim about runs goes through.
-/

namespace NestApi.Txn

variable {Db Lock Event Id Err Req : Type} [DecidableEq Id]

/-- A guarantee with an invariant that all its moves keep. -/
structure Protocol (Db Lock Event Id Req : Type) [DecidableEq Id] where
  guar : Guarantee Db Lock Event Id Req
  Inv : World Db Event Id Req → Prop
  inv_move : ∀ {w w'}, Inv w → Move guar w w' → Inv w'

/-- Any number of abstract moves. -/
def Moves (G : Guarantee Db Lock Event Id Req) :
    World Db Event Id Req → World Db Event Id Req → Prop :=
  Relation.ReflTransGen (Move G)

theorem Moves.trans {G : Guarantee Db Lock Event Id Req} {w w' w'' : World Db Event Id Req}
    (h : Moves G w w') (h' : Moves G w' w'') : Moves G w w'' :=
  Relation.ReflTransGen.trans h h'

namespace Protocol

variable (P : Protocol Db Lock Event Id Req)

/-- Every program an admitted request starts is judged within the guarantee. -/
def Admits (body : Req → Program Db Lock Event Id Err Unit) (Allowed : Req → Prop) : Prop :=
  ∀ (a : Agent Req) (w : World Db Event Id Req), Allowed a.req → P.Inv w →
    wp P.guar a (body a.req) (fun _ _ _ => True) Ctx.start w

/-- The process `p` of a configuration is within the guarantee from here on. -/
def Judged (σ : Config Db Lock Event Id Err Req) (p : ℕ)
    (proc : Proc Db Lock Event Id Err Req) : Prop :=
  wp P.guar ⟨p, proc.req⟩ proc.prog (fun _ _ _ => True)
    ⟨fun l => σ.locks l = some p, proc.pend⟩ σ.world

/-- The simulation relation: the invariant holds and every process is judged. -/
structure Sound (Allowed : Req → Prop) (σ : Config Db Lock Event Id Err Req) : Prop where
  inv : P.Inv σ.world
  judged : ∀ p proc, σ.procs p = some proc → P.Judged σ p proc
  allowed : ∀ p proc, σ.procs p = some proc → Allowed proc.req
  served : ∀ e ∈ σ.world.log, Allowed e.agent.req
  owned : ∀ l p, σ.locks l = some p → σ.procs p ≠ none

end Protocol

variable {P : Protocol Db Lock Event Id Req} {σ τ : Config Db Lock Event Id Err Req}
  {Allowed : Req → Prop} {body : Req → Program Db Lock Event Id Err Unit}

open Protocol

/-- Judgements of processes depend on their locks only through what they hold. -/
theorem Protocol.Judged.of_interf {p : ℕ} {proc : Proc Db Lock Event Id Err Req}
    (h : P.Judged σ p proc) (hlocks : ∀ l, τ.locks l = some p ↔ σ.locks l = some p)
    (hw : Interf P.guar ⟨p, proc.req⟩ (fun l => σ.locks l = some p) σ.world τ.world) :
    P.Judged τ p proc := by
  have hheld : (fun l => τ.locks l = some p) = fun l => σ.locks l = some p :=
    funext fun l => propext (hlocks l)
  unfold Protocol.Judged at h ⊢
  rw [hheld]
  exact wp_interf hw h

/-- One process moves from `σ` to `τ`: it stays judged, the others keep their
locks, and the world makes one move that the others may see. -/
theorem Protocol.Sound.advance {p : ℕ} (h : P.Sound Allowed σ)
    (proc' : Proc Db Lock Event Id Err Req) (hinv : P.Inv τ.world)
    (hprocs : τ.procs = Function.update σ.procs p (some proc'))
    (hmine : P.Judged τ p proc') (hallowed : Allowed proc'.req)
    (hlocks : ∀ q, q ≠ p → ∀ l, τ.locks l = some q ↔ σ.locks l = some q)
    (hworld : ∀ q, q ≠ p → ∀ req, Interf P.guar ⟨q, req⟩ (fun l => σ.locks l = some q)
      σ.world τ.world)
    (hserved : ∀ e ∈ τ.world.log, e ∈ σ.world.log ∨ Allowed e.agent.req) :
    P.Sound Allowed τ where
  inv := hinv
  judged q proc hq := by
    by_cases hqp : q = p
    · subst hqp
      simp only [hprocs, Function.update_self, Option.some.injEq] at hq
      rwa [← hq]
    · rw [hprocs, Function.update_of_ne hqp] at hq
      exact (h.judged q proc hq).of_interf (hlocks q hqp) (hworld q hqp proc.req)
  allowed q proc hq := by
    by_cases hqp : q = p
    · subst hqp
      simp only [hprocs, Function.update_self, Option.some.injEq] at hq
      rwa [← hq]
    · rw [hprocs, Function.update_of_ne hqp] at hq
      exact h.allowed q proc hq
  served e he := (hserved e he).elim (h.served e) id
  owned l q hl := by
    by_cases hqp : q = p
    · subst hqp
      simp [hprocs]
    · rw [hprocs, Function.update_of_ne hqp]
      exact h.owned l q ((hlocks q hqp l).mp hl)

/-- What holds at the start and is kept by every move holds after any run. -/
theorem Moves.invariant {G : Guarantee Db Lock Event Id Req} {w w' : World Db Event Id Req}
    {J : World Db Event Id Req → Prop} (h : Moves G w w')
    (hmove : ∀ {v v'}, J v → Move G v v' → J v') (hw : J w) : J w' := by
  induction h with
  | refl => exact hw
  | tail _ hlast ih => exact hmove ih hlast

theorem Moves.log_suffix {G : Guarantee Db Lock Event Id Req} {w w' : World Db Event Id Req}
    (h : Moves G w w') : w.log <:+ w'.log :=
  h.invariant (J := fun v => w.log <:+ v.log) (fun hv hmove => hv.trans hmove.log_suffix)
    (List.suffix_refl _)

theorem Moves.init_eq {G : Guarantee Db Lock Event Id Req} {w w' : World Db Event Id Req}
    (h : Moves G w w') : w'.init = w.init :=
  h.invariant (J := fun v => v.init = w.init) (fun hv hmove => hmove.init_eq.trans hv) rfl

/-- Moves continue the history. -/
theorem Moves.extends {G : Guarantee Db Lock Event Id Req} {w w' : World Db Event Id Req}
    (h : Moves G w w') : w.Extends w' := ⟨h.init_eq, h.log_suffix⟩

/-- What happens between two statements are moves. -/
theorem Interf.moves {G : Guarantee Db Lock Event Id Req} {a : Agent Req} {held : Lock → Prop}
    {w w' : World Db Event Id Req} (h : Interf G a held w w') : Moves G w w' :=
  Relation.ReflTransGen.mono (fun _ _ => EnvStep.move) _ _ h

/-- Every entry came within the guarantee, in a world with the history before it, where the
invariant holds and from where the run goes on. -/
theorem Protocol.entry {init : Db} {now : ℕ} {ids : Table (Prod.fst : Id × Option ℕ → Id)}
    {w : World Db Event Id Req} (hinv : P.Inv ⟨init, [], now, ids⟩)
    (h : Moves P.guar ⟨init, [], now, ids⟩ w) {e : Entry Db Event Req}
    {l : List (Entry Db Event Req)} (hl : (e :: l) <:+ w.log) :
    ∃ (v : World Db Event Id Req) (L : Lock → Prop), v.log = l ∧ v.init = init ∧ P.Inv v ∧
      P.guar e.agent L v e.event e.db ∧ Moves P.guar v w := by
  induction h with
  | refl => cases List.suffix_nil.mp hl
  | tail hbefore hlast ih =>
    rename_i v v'
    have hgo : (e :: l) <:+ v.log → ∃ (u : World Db Event Id Req) (L : Lock → Prop), u.log = l ∧
        u.init = init ∧ P.Inv u ∧ P.guar e.agent L u e.event e.db ∧ Moves P.guar u v' := by
      intro hold
      obtain ⟨u, L, hlog, hinit, hu, hstep, hmoves⟩ := ih hold
      exact ⟨u, L, hlog, hinit, hu, hstep, hmoves.tail hlast⟩
    cases hlast with
    | tick n => exact hgo hl
    | issue x p hx => exact hgo hl
    | act a L ev db hstep =>
      rcases List.suffix_cons_iff.mp hl with hnew | hold
      · obtain ⟨rfl, rfl⟩ := List.cons.inj hnew
        have hv : P.Inv v := Moves.invariant (J := P.Inv) hbefore P.inv_move hinv
        exact ⟨v, L, rfl, Moves.init_eq hbefore, hv, hstep, .single (.act a L ev db hstep)⟩
      · exact hgo hold

variable [DecidableEq Lock]

/-- One statement keeps the simulation and makes at most one abstract move. -/
theorem Protocol.Sound.statement {p : ℕ} {proc : Proc Db Lock Event Id Err Req}
    (h : P.Sound Allowed σ) (hproc : σ.procs p = some proc)
    (hstep : σ.statement p proc = some τ) :
    P.Sound Allowed τ ∧ Moves P.guar σ.world τ.world := by
  have hmine := h.judged p proc hproc
  have hallowed := h.allowed p proc hproc
  obtain ⟨req, prog, pend⟩ := proc
  unfold Protocol.Judged at hmine
  cases prog with
  | done | fail | fresh => simp [Config.statement] at hstep
  | read k =>
    obtain rfl := Option.some_inj.mp hstep
    exact ⟨h.advance _ h.inv rfl (hmine _ .refl) hallowed (fun _ _ _ => .rfl)
      (fun _ _ _ => .refl) (fun _ he => .inl he), .refl⟩
  | clock k =>
    obtain rfl := Option.some_inj.mp hstep
    exact ⟨h.advance _ h.inv rfl (hmine _ .refl) hallowed (fun _ _ _ => .rfl)
      (fun _ _ _ => .refl) (fun _ he => .inl he), .refl⟩
  | sleep t k =>
    simp only [Config.statement, Option.ite_none_right_eq_some, Option.some.injEq] at hstep
    obtain ⟨ht, rfl⟩ := hstep
    exact ⟨h.advance _ h.inv rfl (hmine _ .refl ht) hallowed (fun _ _ _ => .rfl)
      (fun _ _ _ => .refl) (fun _ he => .inl he), .refl⟩
  | write f k =>
    obtain rfl := Option.some_inj.mp hstep
    exact ⟨h.advance _ h.inv rfl (hmine _ .refl) hallowed (fun _ _ _ => .rfl)
      (fun _ _ _ => .refl) (fun _ he => .inl he), .refl⟩
  | observe ev k =>
    obtain rfl := Option.some_inj.mp hstep
    obtain ⟨hG, hrest⟩ := hmine _ .refl
    have hmove : Move P.guar σ.world
        (σ.world.push ⟨p, req⟩ (ev (pend σ.world.db)) σ.world.db) := .act _ _ _ _ hG
    refine ⟨h.advance _ (P.inv_move h.inv hmove) rfl hrest hallowed (fun _ _ _ => .rfl)
      (fun q hq r => ?_) ?_, .single hmove⟩
    · exact .single (.other _ _ _ _ (Ne.symm hq) (by rintro l hl; simp [hl, hq]) hG)
    · rintro e (_ | ⟨_, he⟩)
      · exact .inr hallowed
      · exact .inl he
  | lock l k =>
    simp only [Config.statement, Option.ite_none_right_eq_some, Option.some.injEq] at hstep
    obtain ⟨hfree, rfl⟩ := hstep
    refine ⟨h.advance ⟨req, k, pend⟩ h.inv rfl ?_ hallowed
      (fun q hq m => ?_) (fun _ _ _ => .refl) (fun _ he => .inl he), .refl⟩
    · have hheld : (fun m => Function.update σ.locks l (some p) m = some p) =
          fun m => m = l ∨ σ.locks m = some p := by
        funext m
        by_cases hm : m = l <;> simp [hm]
      unfold Protocol.Judged
      simp only [Config.setProc, Config.acquire, hheld]
      exact hmine _ .refl
    · by_cases hm : m = l
      · subst hm
        rcases hfree with hfree | hfree <;>
          simp [Config.setProc, Config.acquire, hfree, Ne.symm hq]
      · simp [Config.setProc, Config.acquire, hm]
  | commit ev k =>
    obtain rfl := Option.some_inj.mp hstep
    obtain ⟨hG, hrest⟩ := hmine _ .refl
    have hmove : Move P.guar σ.world (σ.world.push ⟨p, req⟩ ev (pend σ.world.db)) :=
      .act _ _ _ _ hG
    refine ⟨h.advance ⟨req, k, id⟩ (P.inv_move h.inv hmove) rfl ?_ hallowed
      (fun q hq m => ?_) (fun q hq r => ?_) ?_, .single hmove⟩
    · have hheld : (fun m => (if σ.locks m = some p then none else σ.locks m) = some p) =
          fun _ => False := by
        funext m
        by_cases hm : σ.locks m = some p <;> simp [hm]
      unfold Protocol.Judged
      simp only [Config.setProc, Config.release, hheld]
      exact hrest
    · by_cases hm : σ.locks m = some p <;> simp [Config.setProc, Config.release, hm, Ne.symm hq]
    · exact .single (.other _ _ _ _ (Ne.symm hq) (by rintro l hl; simp [hl, hq]) hG)
    · rintro e (_ | ⟨_, he⟩)
      · exact .inr hallowed
      · exact .inl he
  | rollback k =>
    obtain rfl := Option.some_inj.mp hstep
    refine ⟨h.advance ⟨req, k, id⟩ h.inv rfl ?_ hallowed
      (fun q hq m => ?_) (fun _ _ _ => .refl) (fun _ he => .inl he), .refl⟩
    · have hheld : (fun m => (if σ.locks m = some p then none else σ.locks m) = some p) =
          fun _ => False := by
        funext m
        by_cases hm : σ.locks m = some p <;> simp [hm]
      unfold Protocol.Judged
      simp only [Config.setProc, Config.release, hheld]
      exact hmine _ .refl
    · by_cases hm : σ.locks m = some p <;> simp [Config.setProc, Config.release, hm, Ne.symm hq]

/-- One action keeps the simulation and makes at most one abstract move. -/
theorem Protocol.Sound.exec {act : Action Id Req} (h : P.Sound Allowed σ)
    (hadm : P.Admits body Allowed) (hallowed : ∀ p req, act = .spawn p req → Allowed req)
    (hexec : σ.exec body act = some τ) :
    P.Sound Allowed τ ∧ Moves P.guar σ.world τ.world := by
  cases act with
  | spawn p req =>
    cases hproc : σ.procs p with
    | some proc => simp [Config.exec, hproc] at hexec
    | none =>
      simp only [Config.exec, hproc, Option.some.injEq] at hexec
      subst hexec
      have hreq := hallowed p req rfl
      refine ⟨h.advance ⟨req, body req, id⟩ h.inv rfl ?_ hreq
        (fun _ _ _ => .rfl) (fun _ _ _ => .refl) (fun _ he => .inl he), .refl⟩
      have hheld : (fun l => σ.locks l = some p) = fun _ => False := by
        funext l
        simpa using fun hl => h.owned l p hl hproc
      unfold Protocol.Judged
      simp only [Config.setProc, hheld]
      exact hadm ⟨p, req⟩ σ.world hreq h.inv
  | step p =>
    obtain ⟨proc, hproc, hstep⟩ := Option.bind_eq_some_iff.mp hexec
    exact h.statement hproc hstep
  | draw p x =>
    obtain ⟨⟨req, prog, pend⟩, hproc, hstep⟩ := Option.bind_eq_some_iff.mp hexec
    cases prog with
    | fresh k =>
      cases hx : σ.world.issued.find? x with
      | some _ => simp [hx] at hstep
      | none =>
        simp only [hx, Option.some.injEq] at hstep
        subst hstep
        have hmine := h.judged p _ hproc
        have hreq := h.allowed p _ hproc
        have hmove : Move P.guar σ.world (σ.world.issue x p) := .issue x p hx
        exact ⟨h.advance ⟨req, k x, pend⟩ (P.inv_move h.inv hmove) rfl
          (hmine _ .refl x hx) hreq (fun _ _ _ => .rfl)
          (fun _ _ _ => .single (.issue x p hx)) (fun _ he => .inl he), .single hmove⟩
    | _ => simp at hstep
  | tick n =>
    obtain rfl := Option.some_inj.mp hexec
    have hmove : Move P.guar σ.world (σ.world.tick n) := .tick n
    exact ⟨{ inv := P.inv_move h.inv hmove
             judged := fun p proc hp =>
               (h.judged p proc hp).of_interf (fun _ => .rfl) (.single (.tick n))
             allowed := h.allowed
             served := h.served
             owned := h.owned }, .single hmove⟩
  | crash p =>
    obtain ⟨proc, hproc, rfl⟩ := Option.map_eq_some_iff.mp hexec
    refine ⟨h.advance { proc with prog := .done (), pend := id } h.inv rfl
      trivial (h.allowed p proc hproc) (fun q hq m => ?_) (fun _ _ _ => .refl)
      (fun _ he => .inl he), .refl⟩
    by_cases hm : σ.locks m = some p <;> simp [Config.setProc, Config.release, hm, Ne.symm hq]

/-- Every run of the machine from a fresh start is a run of the abstract system, and
only admitted requests leave events. -/
theorem Protocol.refines {init : Db} {now : ℕ} {ids : Table (Prod.fst : Id × Option ℕ → Id)}
    (hadm : P.Admits body Allowed) (hinv : P.Inv ⟨init, [], now, ids⟩)
    (hreach : Config.Reaches body Allowed (Config.start init now ids) σ) :
    Moves P.guar ⟨init, [], now, ids⟩ σ.world ∧ P.Inv σ.world ∧
      ∀ e ∈ σ.world.log, Allowed e.agent.req := by
  have hsound : P.Sound Allowed σ ∧ Moves P.guar ⟨init, [], now, ids⟩ σ.world := by
    induction hreach with
    | refl =>
      exact ⟨⟨hinv, by simp [Config.start], by simp [Config.start], by simp [Config.start],
        by simp [Config.start]⟩, .refl⟩
    | tail _ hstep ih =>
      obtain ⟨act, hact, hexec⟩ := hstep
      obtain ⟨hsound, hmoves⟩ := ih.1.exec hadm hact hexec
      exact ⟨hsound, ih.2.trans hmoves⟩
  exact ⟨hsound.2, hsound.1.inv, hsound.1.served⟩

end NestApi.Txn
