import NestApi.Txn.CommitsLast

/-!
# How often a program reports

A bound on the reports of a kind is read off the program, and holds of its process in every
run. With a bound of one, an entry of that kind is known by its process.
-/

namespace NestApi.Txn

variable {Db Lock Event Id Err Req α β : Type} {P : Event → Prop} {m n : ℕ}

namespace Program

/-- The program makes at most `n` reports within `P`. -/
def AtMost (P : Event → Prop) (n : ℕ) : Program Db Lock Event Id Err α → Prop
  | .done _ | .fail _ => True
  | .read k => ∀ db, AtMost P n (k db)
  | .observe ev k => ∀ db, ¬ P (ev db) ∧ AtMost P n (k db) ∨ ∃ m < n, AtMost P m (k db)
  | .clock k => ∀ t, AtMost P n (k t)
  | .sleep _ k => AtMost P n k
  | .fresh k => ∀ x, AtMost P n (k x)
  | .lock _ k => AtMost P n k
  | .write _ k => AtMost P n k
  | .commit ev k => ¬ P ev ∧ AtMost P n k ∨ ∃ m < n, AtMost P m k
  | .rollback k => AtMost P n k

/-- Bounds add up. -/
theorem AtMost.handle {x : Program Db Lock Event Id Err α}
    {f : Except Err α → Program Db Lock Event Id Err β} (hx : x.AtMost P m)
    (hf : ∀ r k, n ≤ k → (f r).AtMost P k) : (x.handle f).AtMost P (m + n) := by
  induction x generalizing m with
  | done a => exact hf (.ok a) _ (Nat.le_add_left _ _)
  | fail e => exact hf (.error e) _ (Nat.le_add_left _ _)
  | read k ih => exact fun db => ih db (hx db)
  | observe ev k ih =>
    intro db
    rcases hx db with ⟨hnot, hk⟩ | ⟨m', hlt, hk⟩
    · exact .inl ⟨hnot, ih db hk⟩
    · exact .inr ⟨m' + n, by omega, ih db hk⟩
  | clock k ih => exact fun t => ih t (hx t)
  | sleep t k ih => exact ih hx
  | fresh k ih => exact fun x => ih x (hx x)
  | lock l k ih => exact ih hx
  | write g k ih => exact ih hx
  | commit ev k ih =>
    rcases hx with ⟨hnot, hk⟩ | ⟨m', hlt, hk⟩
    · exact .inl ⟨hnot, ih hk⟩
    · exact .inr ⟨m' + n, by omega, ih hk⟩
  | rollback k ih => exact ih hx

/-- A larger bound. -/
theorem AtMost.mono {x : Program Db Lock Event Id Err α} (hx : x.AtMost P m) (h : m ≤ n) :
    x.AtMost P n := by
  induction x generalizing m n with
  | done | fail => trivial
  | read k ih => exact fun db => ih db (hx db) h
  | observe ev k ih =>
    intro db
    rcases hx db with ⟨hnot, hk⟩ | ⟨m', hlt, hk⟩
    · exact .inl ⟨hnot, ih db hk h⟩
    · exact .inr ⟨m', by omega, hk⟩
  | clock k ih => exact fun t => ih t (hx t) h
  | sleep t k ih => exact ih hx h
  | fresh k ih => exact fun x => ih x (hx x) h
  | lock l k ih => exact ih hx h
  | write g k ih => exact ih hx h
  | commit ev k ih =>
    rcases hx with ⟨hnot, hk⟩ | ⟨m', hlt, hk⟩
    · exact .inl ⟨hnot, ih hk h⟩
    · exact .inr ⟨m', by omega, hk⟩
  | rollback k ih => exact ih hx h

theorem AtMost.bind {x : Program Db Lock Event Id Err α}
    {k : α → Program Db Lock Event Id Err β} (hx : x.AtMost P m)
    (hk : ∀ a, (k a).AtMost P n) : (x >>= k).AtMost P (m + n) := by
  refine AtMost.handle hx fun r j hj => ?_
  cases r with
  | ok a => exact (hk a).mono hj
  | error e => trivial

/-- A part that does not report. -/
theorem AtMost.then {x : Program Db Lock Event Id Err α}
    {k : α → Program Db Lock Event Id Err β} (hx : x.AtMost P 0)
    (hk : ∀ a, (k a).AtMost P n) : (x >>= k).AtMost P n := by
  have hsum := AtMost.bind hx hk
  rwa [Nat.zero_add] at hsum

/-- A transaction reports its commit. -/
theorem AtMost.transaction {body : Program Db Lock Event Id Err α} {ev : α → Event}
    (hbody : body.AtMost P 0) : (transaction body ev).AtMost P 1 := by
  have hsum : (Program.transaction body ev).AtMost P (0 + 1) := by
    refine AtMost.handle (n := 1) hbody fun r j hj => ?_
    cases r with
    | ok a => exact .inr ⟨0, hj, trivial⟩
    | error e => trivial
  rwa [Nat.zero_add] at hsum

/-- A transaction whose commit is not within `P`. -/
theorem AtMost.transaction_of_not {body : Program Db Lock Event Id Err α} {ev : α → Event}
    (hbody : body.AtMost P 0) (hev : ∀ a, ¬ P (ev a)) :
    (Program.transaction body ev).AtMost P 0 := by
  refine AtMost.handle (n := 0) hbody fun r j hj => ?_
  cases r with
  | ok a => exact .inl ⟨hev a, trivial⟩
  | error e => trivial

/-- A loop that never reports. -/
theorem AtMost.forEach {xs : List β} {f : β → Program Db Lock Event Id Err Unit}
    (h : ∀ x ∈ xs, (f x).AtMost P 0) : (forEach xs f).AtMost P 0 := by
  induction xs with
  | nil => trivial
  | cons x xs ih =>
    exact AtMost.then (h x (by simp)) fun _ => ih fun y hy => h y (by simp [hy])

theorem AtMost.onlyIf {p : Prop} [Decidable p] {x : Program Db Lock Event Id Err Unit}
    (hx : x.AtMost P n) : (onlyIf p x).AtMost P n := by
  unfold Program.onlyIf
  split
  · exact hx
  · trivial

theorem AtMost.lockRows {ls : List Lock} :
    (lockRows ls : Program Db Lock Event Id Err Unit).AtMost P n := by
  induction ls with
  | nil => trivial
  | cons l ls ih => exact ih

theorem AtMost.ensure {p : Prop} [Decidable p] {e : Err} :
    (ensure p e : Program Db Lock Event Id Err Unit).AtMost P n := by
  unfold Program.ensure
  split <;> trivial

theorem AtMost.orThrow {x : Option α} {e : Err} :
    (orThrow x e : Program Db Lock Event Id Err α).AtMost P n := by
  cases x <;> trivial

end Program

/-! ### Runs -/

/-- How many entries within `P` a process has in a history. -/
def reported (P : Event → Prop) [DecidablePred P] (p : ℕ) (log : List (Entry Db Event Req)) : ℕ :=
  log.countP fun e => e.agent.pid = p ∧ P e.event

section Reported

variable [DecidablePred P] {p : ℕ} {log l k : List (Entry Db Event Req)} {e x : Entry Db Event Req}

theorem reported_cons :
    reported P p (e :: log) =
      reported P p log + if e.agent.pid = p ∧ P e.event then 1 else 0 := by
  simp [reported, List.countP_cons]

/-- With one entry of a kind, it is known by its process. -/
theorem eq_of_reported_le (h : reported P p log ≤ 1) (hl : (e :: l) <:+ log)
    (hk : (x :: k) <:+ log) (hep : e.agent.pid = p) (hxp : x.agent.pid = p) (he : P e.event)
    (hx : P x.event) : e = x ∧ l = k := by
  -- an earlier one beside a later one makes two
  have htwo : ∀ {e x : Entry Db Event Req} {l k : List (Entry Db Event Req)}, (e :: l) <:+ log →
      (x :: k) <:+ log → e.agent.pid = p → x.agent.pid = p → P e.event → P x.event →
        ¬ l.length < k.length := by
    intro e x l k hl hk hep hxp he hx hlt
    have hmem : e ∈ k := (before_of_length_lt hl hk hlt).subset List.mem_cons_self
    have hone : 0 < reported P p k :=
      List.countP_pos_iff.mpr ⟨e, hmem, by simp [hep, he]⟩
    have hle : reported P p (x :: k) ≤ reported P p log := hk.sublist.countP_le
    rw [reported_cons, if_pos ⟨hxp, hx⟩] at hle
    omega
  have hlk := htwo hl hk hep hxp he hx
  have hkl := htwo hk hl hxp hep hx he
  exact eq_of_length_eq hl hk (by omega)

end Reported

namespace Config

open Program

variable [DecidableEq Lock] [DecidableEq Id] [DecidablePred P]
  {body : Req → Program Db Lock Event Id Err Unit} {Allowed : Req → Prop}
  {σ τ : Config Db Lock Event Id Err Req} {p : ℕ} {proc : Proc Db Lock Event Id Err Req}

/-- Every entry is that of a process, and what a process has reported and has left to report
is within the bound of its request. -/
structure Counted (P : Event → Prop) [DecidablePred P] (bound : Req → ℕ)
    (σ : Config Db Lock Event Id Err Req) : Prop where
  served : ∀ e ∈ σ.world.log, ∃ proc, σ.procs e.agent.pid = some proc ∧ proc.req = e.agent.req
  counted : ∀ p proc, σ.procs p = some proc →
    ∃ n, proc.prog.AtMost P n ∧ reported P p σ.world.log + n ≤ bound proc.req

omit [DecidableEq Id] in
/-- One statement: what it reports is taken from what was left. -/
theorem statement_counted {b : ℕ} (hstep : σ.statement p proc = some τ)
    (hleft : ∃ n, proc.prog.AtMost P n ∧ reported P p σ.world.log + n ≤ b) :
    ∃ proc' : Proc Db Lock Event Id Err Req, τ.procs = Function.update σ.procs p (some proc') ∧
      proc'.req = proc.req ∧
        (τ.world.log = σ.world.log ∨
          ∃ ev db, τ.world.log = ⟨⟨p, proc.req⟩, ev, db⟩ :: σ.world.log) ∧
        ∃ n, proc'.prog.AtMost P n ∧ reported P p τ.world.log + n ≤ b := by
  obtain ⟨n, hprog, hn⟩ := hleft
  obtain ⟨req, prog, pend⟩ := proc
  -- a report within `P` uses up a place
  have hreport : ∀ {ev : Event} {db : Db} {k : Program Db Lock Event Id Err Unit},
      (¬ P ev ∧ k.AtMost P n ∨ ∃ m < n, k.AtMost P m) → ∃ n, k.AtMost P n ∧
        reported P p ((⟨⟨p, req⟩, ev, db⟩ : Entry Db Event Req) :: σ.world.log) + n ≤ b := by
    intro ev db k hk
    rcases hk with ⟨hnot, hk⟩ | ⟨m, hlt, hk⟩
    · exact ⟨n, hk, by rw [reported_cons, if_neg (by simp [hnot])]; exact hn⟩
    · refine ⟨m, hk, ?_⟩
      rw [reported_cons]
      split <;> omega
  cases prog with
  | done | fail | fresh => simp [statement] at hstep
  | read k =>
    obtain rfl := Option.some_inj.mp hstep
    exact ⟨_, rfl, rfl, .inl rfl, n, hprog _, hn⟩
  | observe ev k =>
    obtain rfl := Option.some_inj.mp hstep
    exact ⟨_, rfl, rfl, .inr ⟨_, _, rfl⟩, hreport (hprog _)⟩
  | clock k =>
    obtain rfl := Option.some_inj.mp hstep
    exact ⟨_, rfl, rfl, .inl rfl, n, hprog _, hn⟩
  | sleep t k =>
    simp only [statement, Option.ite_none_right_eq_some, Option.some.injEq] at hstep
    obtain ⟨-, rfl⟩ := hstep
    exact ⟨_, rfl, rfl, .inl rfl, n, hprog, hn⟩
  | lock l k =>
    simp only [statement, Option.ite_none_right_eq_some, Option.some.injEq] at hstep
    obtain ⟨-, rfl⟩ := hstep
    exact ⟨_, rfl, rfl, .inl rfl, n, hprog, hn⟩
  | write f k =>
    obtain rfl := Option.some_inj.mp hstep
    exact ⟨_, rfl, rfl, .inl rfl, n, hprog, hn⟩
  | commit ev k =>
    obtain rfl := Option.some_inj.mp hstep
    exact ⟨_, rfl, rfl, .inr ⟨_, _, rfl⟩, hreport hprog⟩
  | rollback k =>
    obtain rfl := Option.some_inj.mp hstep
    exact ⟨_, rfl, rfl, .inl rfl, n, hprog, hn⟩

omit [DecidableEq Lock] [DecidableEq Id] in
/-- One process goes on. The others stay, and count what they have counted. -/
theorem Counted.update {bound : Req → ℕ} {proc' : Proc Db Lock Event Id Err Req}
    (h : Counted P bound σ) (hprocs : τ.procs = Function.update σ.procs p (some proc'))
    (hreq : ∀ proc, σ.procs p = some proc → proc'.req = proc.req)
    (hlog : τ.world.log = σ.world.log ∨
      ∃ ev db, τ.world.log = ⟨⟨p, proc'.req⟩, ev, db⟩ :: σ.world.log)
    (hmine : ∃ n, proc'.prog.AtMost P n ∧ reported P p τ.world.log + n ≤ bound proc'.req) :
    Counted P bound τ where
  served e he := by
    rcases hlog with hsame | ⟨ev, db, hpush⟩
    · exact served_update hprocs hreq (h.served e (hsame ▸ he))
    · rw [hpush] at he
      rcases List.mem_cons.mp he with rfl | hold
      · exact ⟨proc', by rw [hprocs, Function.update_self], rfl⟩
      · exact served_update hprocs hreq (h.served e hold)
  counted q proc hq := by
    by_cases hqp : q = p
    · subst hqp
      simp only [hprocs, Function.update_self, Option.some.injEq] at hq
      exact hq ▸ hmine
    · rw [hprocs, Function.update_of_ne hqp] at hq
      have hsame : reported P q τ.world.log = reported P q σ.world.log := by
        rcases hlog with hsame | ⟨ev, db, hpush⟩
        · rw [hsame]
        · rw [hpush, reported_cons, if_neg (by simp [Ne.symm hqp]), Nat.add_zero]
      rw [hsame]
      exact h.counted q proc hq

/-- One action keeps every process within its bound. -/
theorem Counted.exec {bound : Req → ℕ} {act : Action Id Req} (h : Counted P bound σ)
    (hbody : ∀ req, (body req).AtMost P (bound req)) (hexec : σ.exec body act = some τ) :
    Counted P bound τ := by
  cases act with
  | spawn p req =>
    cases hproc : σ.procs p with
    | some proc => simp [Config.exec, hproc] at hexec
    | none =>
      simp only [Config.exec, hproc, Option.some.injEq] at hexec
      subst hexec
      have hnone : reported P p σ.world.log = 0 := by
        refine List.countP_eq_zero.mpr fun e he => ?_
        obtain ⟨proc, hsome, -⟩ := h.served e he
        have hne : e.agent.pid ≠ p := by
          rintro rfl
          simp [hproc] at hsome
        simp [hne]
      refine h.update (p := p) rfl (by simp [hproc]) (.inl rfl) ⟨bound req, hbody req, ?_⟩
      change reported P p σ.world.log + bound req ≤ bound req
      omega
  | step p =>
    obtain ⟨proc, hproc, hstep⟩ := Option.bind_eq_some_iff.mp hexec
    obtain ⟨proc', hprocs, hreq, hlog, hmine⟩ := statement_counted hstep (h.counted p proc hproc)
    refine h.update hprocs (fun r hr => ?_) (by rwa [hreq]) (by rwa [hreq])
    rw [hreq, Option.some_inj.mp (hproc.symm.trans hr)]
  | draw p x =>
    obtain ⟨⟨req, prog, pend⟩, hproc, hstep⟩ := Option.bind_eq_some_iff.mp hexec
    cases prog with
    | fresh k =>
      cases hx : σ.world.issued.find? x with
      | some _ => simp [hx] at hstep
      | none =>
        simp only [hx, Option.some.injEq] at hstep
        subst hstep
        obtain ⟨n, hprog, hn⟩ := h.counted p _ hproc
        exact h.update (p := p) rfl (by simp [hproc]) (.inl rfl) ⟨n, hprog x, hn⟩
    | _ => simp at hstep
  | tick n =>
    obtain rfl := Option.some_inj.mp hexec
    exact ⟨h.served, h.counted⟩
  | crash p =>
    obtain ⟨proc, hproc, rfl⟩ := Option.map_eq_some_iff.mp hexec
    obtain ⟨n, -, hn⟩ := h.counted p proc hproc
    refine h.update (p := p) rfl (fun r hr => ?_) (.inl rfl) ⟨n, trivial, hn⟩
    rw [Option.some_inj.mp (hproc.symm.trans hr)]

/-- In every run, a process reports no more than its program may. -/
theorem reaches_counted {init : Db} {now : ℕ} {ids : Table (Prod.fst : Id × Option ℕ → Id)}
    {bound : Req → ℕ} (hbody : ∀ req, (body req).AtMost P (bound req))
    (hreach : Reaches body Allowed (start init now ids) σ) : Counted P bound σ := by
  induction hreach with
  | refl => exact ⟨by simp [start], by simp [start]⟩
  | tail _ hstep ih =>
    obtain ⟨act, -, hexec⟩ := hstep
    exact ih.exec hbody hexec

omit [DecidableEq Lock] [DecidableEq Id] in
/-- A process that reports once has one entry. -/
theorem Counted.eq_of_agent {bound : Req → ℕ} (h : Counted P bound σ)
    {e x : Entry Db Event Req} {l k : List (Entry Db Event Req)} (hl : (e :: l) <:+ σ.world.log)
    (hk : (x :: k) <:+ σ.world.log) (hagent : x.agent = e.agent) (hbound : bound e.agent.req ≤ 1)
    (he : P e.event) (hx : P x.event) : e = x ∧ l = k := by
  obtain ⟨proc, hproc, hreq⟩ := h.served e (hl.subset List.mem_cons_self)
  obtain ⟨n, -, hn⟩ := h.counted _ proc hproc
  rw [hreq] at hn
  have hle : reported P e.agent.pid σ.world.log ≤ 1 := by omega
  exact eq_of_reported_le hle hl hk rfl (by rw [hagent]) he hx

end Config

end NestApi.Txn
