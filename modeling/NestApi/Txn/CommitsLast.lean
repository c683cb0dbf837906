import NestApi.Txn.Machine

/-!
# Programs that commit last

A program commits last when nothing but its answer follows a commit. A process of such a
program that failed has changed nothing: all that it reported, it reported from queries. The
property is read off the program, and one induction carries it over every interleaving.
-/

namespace NestApi.Txn

variable {Db Lock Event Id Err Req α β : Type} {seen written : Event → Prop}

namespace Program

/-- The program has answered. -/
def Answers : Program Db Lock Event Id Err α → Prop
  | .done _ => True
  | _ => False

instance : (x : Program Db Lock Event Id Err α) → Decidable x.Answers
  | .done _ => isTrue trivial
  | .fail _ | .read _ | .observe _ _ | .clock _ | .sleep _ _ | .fresh _ | .lock _ _ | .write _ _
  | .commit _ _ | .rollback _ => isFalse id

/-- Every query reports within `seen`, and a commit, within `written`, is the last statement. -/
def CommitsLast (seen written : Event → Prop) : Program Db Lock Event Id Err α → Prop
  | .done _ | .fail _ => True
  | .read k => ∀ db, CommitsLast seen written (k db)
  | .observe ev k => ∀ db, seen (ev db) ∧ CommitsLast seen written (k db)
  | .clock k => ∀ t, CommitsLast seen written (k t)
  | .sleep _ k => CommitsLast seen written k
  | .fresh k => ∀ x, CommitsLast seen written (k x)
  | .lock _ k => CommitsLast seen written k
  | .write _ k => CommitsLast seen written k
  | .commit ev k => written ev ∧ k.Answers
  | .rollback k => CommitsLast seen written k

/-- A program without a commit. -/
abbrev Uncommitted (seen : Event → Prop) (x : Program Db Lock Event Id Err α) : Prop :=
  x.CommitsLast seen fun _ => False

/-- What follows a part without a commit may commit. -/
theorem CommitsLast.handle {x : Program Db Lock Event Id Err α}
    {f : Except Err α → Program Db Lock Event Id Err β} (hx : x.Uncommitted seen)
    (hf : ∀ r, (f r).CommitsLast seen written) : (x.handle f).CommitsLast seen written := by
  induction x with
  | done a => exact hf (.ok a)
  | fail e => exact hf (.error e)
  | read k ih => exact fun db => ih db (hx db)
  | observe ev k ih => exact fun db => ⟨(hx db).1, ih db (hx db).2⟩
  | clock k ih => exact fun t => ih t (hx t)
  | sleep t k ih => exact ih hx
  | fresh k ih => exact fun x => ih x (hx x)
  | lock l k ih => exact ih hx
  | write g k ih => exact ih hx
  | commit ev k => exact hx.1.elim
  | rollback k ih => exact ih hx

theorem CommitsLast.bind {x : Program Db Lock Event Id Err α}
    {k : α → Program Db Lock Event Id Err β} (hx : x.Uncommitted seen)
    (hk : ∀ a, (k a).CommitsLast seen written) : (x >>= k).CommitsLast seen written := by
  refine CommitsLast.handle hx fun r => ?_
  cases r with
  | ok a => exact hk a
  | error e => trivial

/-- A transaction commits when its body answers. -/
theorem CommitsLast.transaction {body : Program Db Lock Event Id Err α} {ev : α → Event}
    (hbody : body.Uncommitted seen) (hev : ∀ a, written (ev a)) :
    (transaction body ev).CommitsLast seen written := by
  refine CommitsLast.handle hbody fun r => ?_
  cases r with
  | ok a => exact ⟨hev a, trivial⟩
  | error e => trivial

/-- A handler of failures runs only where nothing was committed. -/
theorem CommitsLast.catchError {x : Program Db Lock Event Id Err α}
    {h : Err → Program Db Lock Event Id Err α} (hx : x.CommitsLast seen written)
    (hh : ∀ e, (h e).CommitsLast seen written) :
    (catchError x h).CommitsLast seen written := by
  unfold Program.catchError
  induction x with
  | done a => trivial
  | fail e => exact hh e
  | read k ih => exact fun db => ih db (hx db)
  | observe ev k ih => exact fun db => ⟨(hx db).1, ih db (hx db).2⟩
  | clock k ih => exact fun t => ih t (hx t)
  | sleep t k ih => exact ih hx
  | fresh k ih => exact fun x => ih x (hx x)
  | lock l k ih => exact ih hx
  | write g k ih => exact ih hx
  | commit ev k =>
    obtain ⟨hev, hk⟩ := hx
    cases k with
    | done a => exact ⟨hev, trivial⟩
    | _ => exact hk.elim
  | rollback k ih => exact ih hx

/-- Mapping the answer is no statement. -/
theorem CommitsLast.map {x : Program Db Lock Event Id Err α} {f : α → β}
    (hx : x.CommitsLast seen written) :
    (x >>= fun a => pure (f a)).CommitsLast seen written := by
  change (x.bind _).CommitsLast _ _
  unfold Program.bind
  induction x with
  | done a => trivial
  | fail e => trivial
  | read k ih => exact fun db => ih db (hx db)
  | observe ev k ih => exact fun db => ⟨(hx db).1, ih db (hx db).2⟩
  | clock k ih => exact fun t => ih t (hx t)
  | sleep t k ih => exact ih hx
  | fresh k ih => exact fun x => ih x (hx x)
  | lock l k ih => exact ih hx
  | write g k ih => exact ih hx
  | commit ev k =>
    obtain ⟨hev, hk⟩ := hx
    cases k with
    | done a => exact ⟨hev, trivial⟩
    | _ => exact hk.elim
  | rollback k ih => exact ih hx

/-! ### Statements -/

theorem commitsLast_ensure {p : Prop} [Decidable p] {e : Err} :
    (ensure p e : Program Db Lock Event Id Err Unit).CommitsLast seen written := by
  unfold ensure
  split <;> trivial

theorem commitsLast_orThrow {x : Option α} {e : Err} :
    (orThrow x e : Program Db Lock Event Id Err α).CommitsLast seen written := by
  cases x <;> trivial

theorem commitsLast_select {f : Db → α} :
    (select f : Program Db Lock Event Id Err α).CommitsLast seen written :=
  fun _ => trivial

/-- A reported query, with what follows on its answer. -/
theorem CommitsLast.selectObserved {ev : Db → Event} {f : Db → α}
    {k : α → Program Db Lock Event Id Err β}
    (h : ∀ db, seen (ev db) ∧ (k (f db)).CommitsLast seen written) :
    (selectObserved ev f >>= k).CommitsLast seen written := h

theorem commitsLast_modify {f : Db → Db} :
    (modify f : Program Db Lock Event Id Err Unit).CommitsLast seen written := trivial

theorem commitsLast_lockRow {l : Lock} :
    (lockRow l : Program Db Lock Event Id Err Unit).CommitsLast seen written := trivial

theorem commitsLast_lockRows {ls : List Lock} :
    (lockRows ls : Program Db Lock Event Id Err Unit).CommitsLast seen written := by
  induction ls with
  | nil => trivial
  | cons l ls ih => exact ih

theorem commitsLast_now :
    (now : Program Db Lock Event Id Err ℕ).CommitsLast seen written :=
  fun _ => trivial

theorem commitsLast_freshId :
    (freshId : Program Db Lock Event Id Err Id).CommitsLast seen written :=
  fun _ => trivial

end Program

/-! ### Runs -/

namespace Config

variable [DecidableEq Lock] [DecidableEq Id] {body : Req → Program Db Lock Event Id Err Unit}
  {Allowed : Req → Prop} {σ τ : Config Db Lock Event Id Err Req}
  {Seen Written : Req → Event → Prop}

/-- The entry of a query: it is within `seen` and the database is as it was. -/
def Queried (seen : Event → Prop) (init : Db) (l : List (Entry Db Event Req))
    (e : Entry Db Event Req) : Prop :=
  seen e.event ∧ e.db = stateOf init l

/-- What the history says about a process, and what is left of its program. Either it has not
committed, or it has and answers. -/
structure Tracked (seen written : Event → Prop) (w : World Db Event Id Req) (p : ℕ)
    (proc : Proc Db Lock Event Id Err Req) : Prop where
  entries : ∀ e l, (e :: l) <:+ w.log → e.agent.pid = p →
    Queried seen w.init l e ∨ written e.event
  left : proc.prog.Answers ∨ proc.prog.CommitsLast seen written ∧
    ∀ e l, (e :: l) <:+ w.log → e.agent.pid = p → Queried seen w.init l e

omit [DecidableEq Id] in
/-- One statement: the process goes on, and the history stays or grows by an entry of its own.
A program that commits last reported a query, or committed and has answered. -/
theorem statement_entry (seen written : Event → Prop) {p : ℕ}
    {proc : Proc Db Lock Event Id Err Req} (hstep : σ.statement p proc = some τ) :
    ∃ proc' : Proc Db Lock Event Id Err Req, τ.procs = Function.update σ.procs p (some proc') ∧
      proc'.req = proc.req ∧
        (τ.world = σ.world ∧
            (proc.prog.CommitsLast seen written → proc'.prog.CommitsLast seen written) ∨
          ∃ ev db, τ.world = σ.world.push ⟨p, proc.req⟩ ev db ∧
            (proc.prog.CommitsLast seen written →
              seen ev ∧ db = σ.world.db ∧ proc'.prog.CommitsLast seen written ∨
                written ev ∧ proc'.prog.Answers)) := by
  obtain ⟨req, prog, pend⟩ := proc
  cases prog with
  | done | fail | fresh => simp [statement] at hstep
  | read k =>
    obtain rfl := Option.some_inj.mp hstep
    exact ⟨_, rfl, rfl, .inl ⟨rfl, fun hprog => hprog _⟩⟩
  | observe ev k =>
    obtain rfl := Option.some_inj.mp hstep
    refine ⟨_, rfl, rfl, .inr ⟨_, _, rfl, fun hprog => ?_⟩⟩
    have hseen := hprog (pend σ.world.db)
    exact .inl ⟨hseen.1, rfl, hseen.2⟩
  | clock k =>
    obtain rfl := Option.some_inj.mp hstep
    exact ⟨_, rfl, rfl, .inl ⟨rfl, fun hprog => hprog _⟩⟩
  | sleep t k =>
    simp only [statement, Option.ite_none_right_eq_some, Option.some.injEq] at hstep
    obtain ⟨-, rfl⟩ := hstep
    exact ⟨_, rfl, rfl, .inl ⟨rfl, id⟩⟩
  | lock l k =>
    simp only [statement, Option.ite_none_right_eq_some, Option.some.injEq] at hstep
    obtain ⟨-, rfl⟩ := hstep
    exact ⟨_, rfl, rfl, .inl ⟨rfl, id⟩⟩
  | write f k =>
    obtain rfl := Option.some_inj.mp hstep
    exact ⟨_, rfl, rfl, .inl ⟨rfl, id⟩⟩
  | commit ev k =>
    obtain rfl := Option.some_inj.mp hstep
    exact ⟨_, rfl, rfl, .inr ⟨_, _, rfl, .inr⟩⟩
  | rollback k =>
    obtain rfl := Option.some_inj.mp hstep
    exact ⟨_, rfl, rfl, .inl ⟨rfl, id⟩⟩

omit [DecidableEq Lock] [DecidableEq Id] in
/-- An entry of another process does not matter. -/
theorem Tracked.push_other {w : World Db Event Id Req} {p : ℕ}
    {proc : Proc Db Lock Event Id Err Req} {b : Agent Req} {ev : Event} {db : Db}
    (h : Tracked seen written w p proc) (hpid : b.pid ≠ p) :
    Tracked seen written (w.push b ev db) p proc := by
  have hold : ∀ e l, (e :: l) <:+ (w.push b ev db).log → e.agent.pid = p →
      (e :: l) <:+ w.log := by
    intro e l hl hp
    rcases List.suffix_cons_iff.mp hl with hnew | hold
    · obtain ⟨rfl, -⟩ := List.cons.inj hnew
      exact absurd hp hpid
    · exact hold
  refine ⟨fun e l hl hp => h.entries e l (hold e l hl hp) hp, h.left.imp_right fun hleft => ?_⟩
  exact ⟨hleft.1, fun e l hl hp => hleft.2 e l (hold e l hl hp) hp⟩

omit [DecidableEq Id] in
/-- The tracked process makes a statement. -/
theorem Tracked.statement {p : ℕ} {proc : Proc Db Lock Event Id Err Req}
    (h : Tracked seen written σ.world p proc) (hstep : σ.statement p proc = some τ) :
    ∃ proc' : Proc Db Lock Event Id Err Req, τ.procs = Function.update σ.procs p (some proc') ∧
      proc'.req = proc.req ∧ Tracked seen written τ.world p proc' := by
  obtain ⟨proc', hprocs, hreq, hworld⟩ := statement_entry seen written hstep
  refine ⟨proc', hprocs, hreq, ?_⟩
  -- a program that has answered makes no statement
  obtain ⟨hprog, hqueried⟩ : proc.prog.CommitsLast seen written ∧ ∀ e l,
      (e :: l) <:+ σ.world.log → e.agent.pid = p → Queried seen σ.world.init l e := by
    refine h.left.resolve_left fun hanswers => ?_
    obtain ⟨req, prog, pend⟩ := proc
    cases prog with
    | done => simp [Config.statement] at hstep
    | _ => exact hanswers
  rcases hworld with ⟨hsame, hrest⟩ | ⟨ev, db, hpush, hrest⟩
  · rw [hsame]
    exact ⟨h.entries, .inr ⟨hrest hprog, hqueried⟩⟩
  · rw [hpush]
    rcases hrest hprog with ⟨hseen, rfl, hprog'⟩ | ⟨hwritten, hanswers⟩
    · have hall : ∀ e l, (e :: l) <:+ (σ.world.push ⟨p, proc.req⟩ ev σ.world.db).log →
          e.agent.pid = p → Queried seen σ.world.init l e := by
        intro e l hl hp
        rcases List.suffix_cons_iff.mp hl with hnew | hold
        · obtain ⟨rfl, rfl⟩ := List.cons.inj hnew
          exact ⟨hseen, rfl⟩
        · exact hqueried e l hold hp
      exact ⟨fun e l hl hp => .inl (hall e l hl hp), .inr ⟨hprog', hall⟩⟩
    · refine ⟨fun e l hl hp => ?_, .inl hanswers⟩
      rcases List.suffix_cons_iff.mp hl with hnew | hold
      · obtain ⟨rfl, -⟩ := List.cons.inj hnew
        exact .inr hwritten
      · exact h.entries e l hold hp

/-- Every entry is that of a process, for the request it serves, and every process of a request
in `P` is tracked. -/
structure AllTracked (P : Req → Prop) (seen written : Req → Event → Prop)
    (σ : Config Db Lock Event Id Err Req) : Prop where
  served : ∀ e ∈ σ.world.log, ∃ proc, σ.procs e.agent.pid = some proc ∧ proc.req = e.agent.req
  tracked : ∀ p proc, σ.procs p = some proc → P proc.req →
    Tracked (seen proc.req) (written proc.req) σ.world p proc

variable {P : Req → Prop} {Seen Written : Req → Event → Prop}

omit [DecidableEq Lock] [DecidableEq Id] in
/-- An entry of a process that goes on stays one. -/
theorem served_update {p : ℕ} {proc' : Proc Db Lock Event Id Err Req} {e : Entry Db Event Req}
    (hprocs : τ.procs = Function.update σ.procs p (some proc'))
    (hreq : ∀ proc, σ.procs p = some proc → proc'.req = proc.req)
    (he : ∃ proc, σ.procs e.agent.pid = some proc ∧ proc.req = e.agent.req) :
    ∃ proc, τ.procs e.agent.pid = some proc ∧ proc.req = e.agent.req := by
  obtain ⟨proc, hproc, hserved⟩ := he
  by_cases hp : e.agent.pid = p
  · refine ⟨proc', by rw [hprocs, hp, Function.update_self], ?_⟩
    rw [hreq proc (hp ▸ hproc), hserved]
  · exact ⟨proc, by rw [hprocs, Function.update_of_ne hp, hproc], hserved⟩

omit [DecidableEq Lock] [DecidableEq Id] in
/-- One process goes on and the history stays as it is. -/
theorem AllTracked.update {p : ℕ} {proc' : Proc Db Lock Event Id Err Req}
    (h : AllTracked P Seen Written σ) (hprocs : τ.procs = Function.update σ.procs p (some proc'))
    (hreq : ∀ proc, σ.procs p = some proc → proc'.req = proc.req)
    (hlog : τ.world.log = σ.world.log) (hinit : τ.world.init = σ.world.init)
    (hmine : P proc'.req → Tracked (Seen proc'.req) (Written proc'.req) σ.world p proc') :
    AllTracked P Seen Written τ where
  served e he := served_update hprocs hreq (h.served e (hlog ▸ he))
  tracked q proc hq hP := by
    have hsame : Tracked (Seen proc.req) (Written proc.req) σ.world q proc := by
      by_cases hqp : q = p
      · subst hqp
        simp only [hprocs, Function.update_self, Option.some.injEq] at hq
        subst hq
        exact hmine hP
      · rw [hprocs, Function.update_of_ne hqp] at hq
        exact h.tracked q proc hq hP
    exact ⟨by rw [hlog, hinit]; exact hsame.entries, by rw [hlog, hinit]; exact hsame.left⟩

omit [DecidableEq Id] in
/-- One statement keeps every process tracked. -/
theorem AllTracked.statement {p : ℕ} {proc : Proc Db Lock Event Id Err Req}
    (h : AllTracked P Seen Written σ) (hproc : σ.procs p = some proc)
    (hstep : σ.statement p proc = some τ) : AllTracked P Seen Written τ := by
  obtain ⟨proc', hprocs, hreq, hworld⟩ :=
    statement_entry (Seen proc.req) (Written proc.req) hstep
  have hkept : ∀ r, σ.procs p = some r → proc'.req = r.req := by
    intro r hr
    rw [hreq, Option.some_inj.mp (hproc.symm.trans hr)]
  have hmine : P proc'.req → Tracked (Seen proc'.req) (Written proc'.req) τ.world p proc' := by
    rw [hreq]
    intro hP
    obtain ⟨proc'', hprocs', -, htracked⟩ := (h.tracked p proc hproc hP).statement hstep
    have hsame : proc'' = proc' := by
      have hboth := congrFun (hprocs'.symm.trans hprocs) p
      simpa using hboth
    exact hsame ▸ htracked
  refine ⟨fun e he => ?_, fun q r hq hP => ?_⟩
  · rcases hworld with ⟨hsame, -⟩ | ⟨ev, db, hpush, -⟩
    · exact served_update hprocs hkept (h.served e (hsame ▸ he))
    · rw [hpush] at he
      rcases List.mem_cons.mp he with rfl | he
      · exact ⟨proc', by rw [hprocs, Function.update_self], hreq⟩
      · exact served_update hprocs hkept (h.served e he)
  · by_cases hqp : q = p
    · subst hqp
      simp only [hprocs, Function.update_self, Option.some.injEq] at hq
      subst hq
      exact hmine hP
    · rw [hprocs, Function.update_of_ne hqp] at hq
      have htracked := h.tracked q r hq hP
      rcases hworld with ⟨hsame, -⟩ | ⟨ev, db, hpush, -⟩
      · rwa [hsame]
      · rw [hpush]
        exact htracked.push_other (Ne.symm hqp)

/-- One action keeps every process tracked. -/
theorem AllTracked.exec {act : Action Id Req} (h : AllTracked P Seen Written σ)
    (hbody : ∀ req, P req → (body req).CommitsLast (Seen req) (Written req))
    (hexec : σ.exec body act = some τ) : AllTracked P Seen Written τ := by
  cases act with
  | spawn p req =>
    cases hproc : σ.procs p with
    | some proc => simp [Config.exec, hproc] at hexec
    | none =>
      simp only [Config.exec, hproc, Option.some.injEq] at hexec
      subst hexec
      have hnone : ∀ e l, (e :: l) <:+ σ.world.log → e.agent.pid ≠ p := by
        rintro e l hl rfl
        obtain ⟨proc, hsome, -⟩ := h.served e (hl.subset (by simp))
        simp [hproc] at hsome
      refine h.update rfl (by simp [hproc]) rfl rfl fun hP =>
        ⟨fun e l hl hp => absurd hp (hnone e l hl), ?_⟩
      exact .inr ⟨hbody req hP, fun e l hl hp => absurd hp (hnone e l hl)⟩
  | step p =>
    obtain ⟨proc, hproc, hstep⟩ := Option.bind_eq_some_iff.mp hexec
    exact h.statement hproc hstep
  | draw p x =>
    obtain ⟨⟨req, prog, pend⟩, hproc, hstep⟩ := Option.bind_eq_some_iff.mp hexec
    cases prog with
    | fresh k =>
      cases hx : σ.world.issued.find? x with
      | some _ => simp [hx] at hstep
      | none =>
        simp only [hx, Option.some.injEq] at hstep
        subst hstep
        refine h.update rfl (by simp [hproc]) rfl rfl fun hP => ?_
        obtain ⟨hentries, hleft⟩ := h.tracked p _ hproc hP
        obtain ⟨hprog, hqueried⟩ := hleft.resolve_left id
        exact ⟨hentries, .inr ⟨hprog x, hqueried⟩⟩
    | _ => simp at hstep
  | tick n =>
    obtain rfl := Option.some_inj.mp hexec
    exact ⟨h.served, fun p proc hp hP => ⟨(h.tracked p proc hp hP).1, (h.tracked p proc hp hP).2⟩⟩
  | crash p =>
    obtain ⟨proc, hproc, rfl⟩ := Option.map_eq_some_iff.mp hexec
    refine h.update rfl (fun r hr => ?_) rfl rfl fun hP =>
      ⟨(h.tracked p proc hproc hP).entries, .inl trivial⟩
    rw [Option.some_inj.mp (hproc.symm.trans hr)]

/-- In every run, what a process of a program that commits last has reported is a query or its
commit. -/
theorem reaches_tracked {init : Db} {now : ℕ} {ids : Table (Prod.fst : Id × Option ℕ → Id)}
    (hbody : ∀ req, P req → (body req).CommitsLast (Seen req) (Written req))
    (hreach : Reaches body Allowed (start init now ids) σ) : AllTracked P Seen Written σ := by
  induction hreach with
  | refl => exact ⟨by simp [start], by simp [start]⟩
  | tail _ hstep ih =>
    obtain ⟨act, -, hexec⟩ := hstep
    exact ih.exec hbody hexec

omit [DecidableEq Lock] [DecidableEq Id] in
/-- An entry of a tracked request. -/
theorem AllTracked.entry (h : AllTracked P Seen Written σ) {e : Entry Db Event Req}
    {l : List (Entry Db Event Req)} (hl : (e :: l) <:+ σ.world.log) (hP : P e.agent.req) :
    Queried (Seen e.agent.req) σ.world.init l e ∨ Written e.agent.req e.event := by
  obtain ⟨proc, hproc, hreq⟩ := h.served e (hl.subset (by simp))
  rw [← hreq] at hP ⊢
  exact (h.tracked _ proc hproc hP).entries e l hl rfl

omit [DecidableEq Lock] [DecidableEq Id] in
/-- A process that failed has changed nothing. -/
theorem AllTracked.failed {p : ℕ} {proc : Proc Db Lock Event Id Err Req} {err : Err}
    (h : AllTracked P Seen Written σ) (hproc : σ.procs p = some proc) (hP : P proc.req)
    (hfail : proc.prog = .fail err) {e : Entry Db Event Req} {l : List (Entry Db Event Req)}
    (hl : (e :: l) <:+ σ.world.log) (hp : e.agent.pid = p) :
    Queried (Seen proc.req) σ.world.init l e := by
  have hleft := (h.tracked p proc hproc hP).left
  rw [hfail] at hleft
  exact (hleft.resolve_left id).2 e l hl hp

end Config

end NestApi.Txn
