import Mathlib.Logic.Relation
import Mathlib.Logic.Function.Basic
import NestApi.Txn.Program
import NestApi.Txn.Table

/-!
# The interleaving machine

Any number of programs run against one database. Committed state is all that a
query sees of other programs, each query sees the newest committed state (READ
COMMITTED), and a locked row makes every other program wait. A step of the
machine is one statement of one program, a new program, the passing of time, or
the death of a program between two statements.
-/

namespace NestApi.Txn

/-- A program in execution: its process number and the request it serves. -/
structure Agent (Req : Type) where
  pid : ℕ
  req : Req
deriving DecidableEq

/-- One event of the history with the committed database just after it. -/
structure Entry (Db Event Req : Type) where
  agent : Agent Req
  event : Event
  db : Db

/-- What all programs share: the committed states so far (newest first), the
clock, and every identifier drawn so far with the process that drew it. The
identifiers of the initial database belong to no process. -/
structure World (Db Event Id Req : Type) where
  init : Db
  log : List (Entry Db Event Req)
  now : ℕ
  issued : Table (Prod.fst : Id × Option ℕ → Id)

/-- The committed database after a history. -/
def stateOf {Db Event Req : Type} (init : Db) : List (Entry Db Event Req) → Db
  | [] => init
  | e :: _ => e.db

/-- What holds after a history, and is kept by every later entry, holds from then on. -/
theorem stateOf_persists {Db Event Req : Type} {init : Db} {l l' : List (Entry Db Event Req)}
    {P : Db → Prop} (hl : l <:+ l') (hP : P (stateOf init l))
    (hstep : ∀ e k, l <:+ k → (e :: k) <:+ l' → P (stateOf init k) → P e.db) :
    P (stateOf init l') := by
  induction l' with
  | nil =>
    obtain rfl := List.suffix_nil.mp hl
    exact hP
  | cons e k ih =>
    rcases List.suffix_cons_iff.mp hl with rfl | hk
    · exact hP
    · have hbefore : P (stateOf init k) :=
        ih hk fun e' k' hk' he' => hstep e' k' hk' (he'.trans (List.suffix_cons _ _))
      exact hstep e k hk (List.suffix_refl _) hbefore

/-! ### Positions

The position of an entry is the length of the history before it. -/

/-- An entry at an earlier position is in the history before the later one. -/
theorem before_of_length_lt {α : Type} {x e : α} {k l log : List α} (hx : (x :: k) <:+ log)
    (he : (e :: l) <:+ log) (h : k.length < l.length) : (x :: k) <:+ l :=
  List.suffix_of_suffix_length_le hx ((List.suffix_cons e l).trans he) h

/-- There is one entry at a position. -/
theorem eq_of_length_eq {α : Type} {x e : α} {k l log : List α} (hx : (x :: k) <:+ log)
    (he : (e :: l) <:+ log) (h : k.length = l.length) : x = e ∧ k = l := by
  have hsuffix : (x :: k) <:+ (e :: l) :=
    List.suffix_of_suffix_length_le hx he (by simp [h])
  exact List.cons.inj (hsuffix.eq_of_length (by simp [h]))

theorem length_lt_of_before {α : Type} {x : α} {k l : List α} (h : (x :: k) <:+ l) :
    k.length < l.length := by
  exact h.length_le

/-- An entry of a history, with the history before it. -/
theorem exists_suffix_of_mem {α : Type} {x : α} {l : List α} (h : x ∈ l) : ∃ k, (x :: k) <:+ l := by
  obtain ⟨s, t, rfl⟩ := List.append_of_mem h
  exact ⟨t, List.suffix_append _ _⟩

/-- Every entry of a history, together with the history before it, satisfies `P`. -/
def EveryEntry {Db Event Req : Type}
    (P : Entry Db Event Req → List (Entry Db Event Req) → Prop) :
    List (Entry Db Event Req) → Prop
  | [] => True
  | e :: l => P e l ∧ EveryEntry P l

theorem everyEntry_iff {Db Event Req : Type}
    {P : Entry Db Event Req → List (Entry Db Event Req) → Prop} {log : List (Entry Db Event Req)} :
    EveryEntry P log ↔ ∀ e l, (e :: l) <:+ log → P e l := by
  induction log with
  | nil => simp [EveryEntry]
  | cons e l ih =>
    rw [EveryEntry, ih]
    constructor
    · rintro ⟨hhead, htail⟩ e' l' hl
      rcases List.suffix_cons_iff.mp hl with hnew | hold
      · obtain ⟨rfl, rfl⟩ := List.cons.inj hnew
        exact hhead
      · exact htail e' l' hold
    · intro h
      exact ⟨h e l (List.suffix_refl _), fun e' l' hl => h e' l' (hl.trans (List.suffix_cons _ _))⟩

instance EveryEntry.decidable {Db Event Req : Type}
    (P : Entry Db Event Req → List (Entry Db Event Req) → Prop) [∀ e l, Decidable (P e l)] :
    ∀ log, Decidable (EveryEntry P log)
  | [] => isTrue trivial
  | _ :: l => @instDecidableAnd _ _ inferInstance (EveryEntry.decidable P l)

/-- Some entry of a history, together with the history before it, satisfies `P`. -/
def SomeEntry {Db Event Req : Type}
    (P : Entry Db Event Req → List (Entry Db Event Req) → Prop) :
    List (Entry Db Event Req) → Prop
  | [] => False
  | e :: l => P e l ∨ SomeEntry P l

theorem someEntry_iff {Db Event Req : Type}
    {P : Entry Db Event Req → List (Entry Db Event Req) → Prop} {log : List (Entry Db Event Req)} :
    SomeEntry P log ↔ ∃ e l, (e :: l) <:+ log ∧ P e l := by
  induction log with
  | nil => simp [SomeEntry]
  | cons e l ih =>
    rw [SomeEntry, ih]
    constructor
    · rintro (hhead | ⟨e', l', hl, htail⟩)
      · exact ⟨e, l, List.suffix_refl _, hhead⟩
      · exact ⟨e', l', hl.trans (List.suffix_cons _ _), htail⟩
    · rintro ⟨e', l', hl, h⟩
      rcases List.suffix_cons_iff.mp hl with hnew | hold
      · obtain ⟨rfl, rfl⟩ := List.cons.inj hnew
        exact .inl h
      · exact .inr ⟨e', l', hold, h⟩

instance SomeEntry.decidable {Db Event Req : Type}
    (P : Entry Db Event Req → List (Entry Db Event Req) → Prop) [∀ e l, Decidable (P e l)] :
    ∀ log, Decidable (SomeEntry P log)
  | [] => isFalse id
  | _ :: l => @instDecidableOr _ _ inferInstance (SomeEntry.decidable P l)

/-- Once `a` had reported an event within `P`, no entry within `Q` came any more. -/
def Undisturbed {Db Event Req : Type} (P : Event → Prop)
    (Q : Entry Db Event Req → List (Entry Db Event Req) → Prop) (a : Agent Req)
    (log : List (Entry Db Event Req)) : Prop :=
  EveryEntry (fun e l => Q e l → ∀ x ∈ l, x.agent = a → ¬ P x.event) log

instance {Db Event Req : Type} [DecidableEq Req] (P : Event → Prop) [DecidablePred P]
    (Q : Entry Db Event Req → List (Entry Db Event Req) → Prop) [∀ e l, Decidable (Q e l)]
    (a : Agent Req) (log : List (Entry Db Event Req)) : Decidable (Undisturbed P Q a log) :=
  inferInstanceAs (Decidable (EveryEntry _ log))

theorem Undisturbed.not_after {Db Event Req : Type} {P : Event → Prop}
    {Q : Entry Db Event Req → List (Entry Db Event Req) → Prop} {a : Agent Req}
    {log k l : List (Entry Db Event Req)} {x e : Entry Db Event Req}
    (h : Undisturbed P Q a log) (hk : (x :: k) <:+ l) (hl : (e :: l) <:+ log)
    (hagent : x.agent = a) (hx : P x.event) : ¬ Q e l := by
  intro hQ
  exact everyEntry_iff.mp h e l hl hQ x (hk.subset (by simp)) hagent hx

namespace World

variable {Db Event Id Req : Type} [DecidableEq Id]

/-- The committed database. -/
def db (w : World Db Event Id Req) : Db := stateOf w.init w.log

/-- Append an event and its committed database. -/
def push (w : World Db Event Id Req) (a : Agent Req) (ev : Event) (db : Db) :
    World Db Event Id Req :=
  { w with log := ⟨a, ev, db⟩ :: w.log }

/-- Let time pass. -/
def tick (w : World Db Event Id Req) (n : ℕ) : World Db Event Id Req :=
  { w with now := w.now + n }

/-- Record that a process drew an identifier. -/
def issue (w : World Db Event Id Req) (x : Id) (p : ℕ) : World Db Event Id Req :=
  { w with issued := w.issued.insert (x, some p) }

omit [DecidableEq Id] in
@[simp] theorem db_push (w : World Db Event Id Req) (a : Agent Req) (ev : Event) (db : Db) :
    (w.push a ev db).db = db := rfl

omit [DecidableEq Id] in
@[simp] theorem db_tick (w : World Db Event Id Req) (n : ℕ) : (w.tick n).db = w.db := rfl

@[simp] theorem db_issue (w : World Db Event Id Req) (x : Id) (p : ℕ) :
    (w.issue x p).db = w.db := rfl

/-- `db` was the committed database at some point since the history had length `n`. -/
def Since (w : World Db Event Id Req) (n : ℕ) (db : Db) : Prop :=
  ∃ l, l <:+ w.log ∧ n ≤ l.length ∧ stateOf w.init l = db

omit [DecidableEq Id] in
theorem since_db {w : World Db Event Id Req} {n : ℕ} (hn : n ≤ w.log.length) :
    w.Since n w.db :=
  ⟨w.log, List.suffix_refl _, hn, rfl⟩

omit [DecidableEq Id] in
/-- What was committed before or is committed now. -/
theorem since_push {w : World Db Event Id Req} {a : Agent Req} {ev : Event} {db d : Db} {n : ℕ} :
    (w.push a ev db).Since n d ↔ w.Since n d ∨ n ≤ w.log.length + 1 ∧ d = db := by
  constructor
  · rintro ⟨l, hl, hn, rfl⟩
    rcases List.suffix_cons_iff.mp hl with rfl | hl
    · exact .inr ⟨by simpa using hn, rfl⟩
    · exact .inl ⟨l, hl, hn, rfl⟩
  · rintro (⟨l, hl, hn, rfl⟩ | ⟨hn, rfl⟩)
    · exact ⟨l, hl.trans (List.suffix_cons _ _), hn, rfl⟩
    · exact ⟨⟨a, ev, d⟩ :: w.log, List.suffix_refl _, by simpa using hn, rfl⟩

omit [DecidableEq Id] in
/-- What held at some point after the event holds now, when only entries within `Q` destroy it
and none came. -/
theorem persists_since {w : World Db Event Id Req} {D : Db → Prop} {P : Event → Prop}
    {Q : Entry Db Event Req → List (Entry Db Event Req) → Prop} {a : Agent Req}
    {x : Entry Db Event Req} {k : List (Entry Db Event Req)} {s : Db}
    (h : Undisturbed P Q a w.log) (hk : (x :: k) <:+ w.log) (hagent : x.agent = a)
    (hx : P x.event) (hs : w.Since (k.length + 1) s) (hD : D s)
    (hstep : ∀ e l, ¬ Q e l → D (stateOf w.init l) → D e.db) : D w.db := by
  obtain ⟨l, hl, hn, rfl⟩ := hs
  have hkl : (x :: k) <:+ l := List.suffix_of_suffix_length_le hk hl (by simpa using hn)
  refine stateOf_persists hl hD ?_
  intro e m hm he hbefore
  exact hstep e m (h.not_after (hkl.trans hm) he hagent hx) hbefore

/-- `e` is in the history, and there were `n` or more entries before it. -/
def HappenedSince (w : World Db Event Id Req) (n : ℕ) (e : Entry Db Event Req) : Prop :=
  ∃ l, (e :: l) <:+ w.log ∧ n ≤ l.length

omit [DecidableEq Id] in
theorem HappenedSince.mem {w : World Db Event Id Req} {n : ℕ} {e : Entry Db Event Req}
    (h : w.HappenedSince n e) : e ∈ w.log := by
  obtain ⟨l, hl, -⟩ := h
  exact hl.subset (by simp)

omit [DecidableEq Id] in
theorem HappenedSince.mono {w : World Db Event Id Req} {n n' : ℕ} {e : Entry Db Event Req}
    (hn : n ≤ n') (h : w.HappenedSince n' e) : w.HappenedSince n e := by
  obtain ⟨l, hl, hn'⟩ := h
  exact ⟨l, hl, Nat.le_trans hn hn'⟩

omit [DecidableEq Id] in
/-- The newest entry. -/
theorem happenedSince_push {w : World Db Event Id Req} {a : Agent Req} {ev : Event} {db : Db}
    {n : ℕ} (hn : n ≤ w.log.length) : (w.push a ev db).HappenedSince n ⟨a, ev, db⟩ :=
  ⟨w.log, List.suffix_refl _, hn⟩

/-- `w'` continues the history of `w`. -/
structure Extends (w w' : World Db Event Id Req) : Prop where
  init : w'.init = w.init
  log : w.log <:+ w'.log

omit [DecidableEq Id] in
theorem Extends.refl (w : World Db Event Id Req) : w.Extends w := ⟨rfl, List.suffix_refl _⟩

omit [DecidableEq Id] in
theorem Extends.trans {w w' w'' : World Db Event Id Req} (h : w.Extends w')
    (h' : w'.Extends w'') : w.Extends w'' :=
  ⟨h'.init.trans h.init, h.log.trans h'.log⟩

omit [DecidableEq Id] in
theorem extends_push (w : World Db Event Id Req) (a : Agent Req) (ev : Event) (db : Db) :
    w.Extends (w.push a ev db) :=
  ⟨rfl, List.suffix_cons _ _⟩

omit [DecidableEq Id] in
/-- The past never changes. -/
theorem Extends.since {w w' : World Db Event Id Req} {n : ℕ} {db : Db} (h : w.Extends w')
    (hdb : w.Since n db) : w'.Since n db := by
  obtain ⟨l, hl, hn, hstate⟩ := hdb
  exact ⟨l, hl.trans h.log, hn, by rw [h.init]; exact hstate⟩

omit [DecidableEq Id] in
theorem Extends.happenedSince {w w' : World Db Event Id Req} {n : ℕ} {e : Entry Db Event Req}
    (h : w.Extends w') (he : w.HappenedSince n e) : w'.HappenedSince n e := by
  obtain ⟨l, hl, hn⟩ := he
  exact ⟨l, hl.trans h.log, hn⟩

end World

/-- A program in progress: what is left of it and the writes it has not committed. -/
structure Proc (Db Lock Event Id Err Req : Type) where
  req : Req
  prog : Program Db Lock Event Id Err Unit
  pend : Db → Db

/-- A configuration of the machine. -/
structure Config (Db Lock Event Id Err Req : Type) where
  world : World Db Event Id Req
  locks : Lock → Option ℕ
  procs : ℕ → Option (Proc Db Lock Event Id Err Req)

/-- What can happen next. -/
inductive Action (Id Req : Type)
  /-- A request arrives and is served by a new process. -/
  | spawn (p : ℕ) (req : Req)
  /-- A process executes its next statement. -/
  | step (p : ℕ)
  /-- A process draws the identifier `x`. -/
  | draw (p : ℕ) (x : Id)
  /-- Time passes. -/
  | tick (n : ℕ)
  /-- A process dies. Its transaction rolls back. -/
  | crash (p : ℕ)
deriving DecidableEq

namespace Config

variable {Db Lock Event Id Err Req : Type} [DecidableEq Lock] [DecidableEq Id]

/-- Replace one process. -/
def setProc (σ : Config Db Lock Event Id Err Req) (p : ℕ)
    (proc : Proc Db Lock Event Id Err Req) : Config Db Lock Event Id Err Req :=
  { σ with procs := Function.update σ.procs p (some proc) }

/-- Release every lock of one process. -/
def release (σ : Config Db Lock Event Id Err Req) (p : ℕ) : Config Db Lock Event Id Err Req :=
  { σ with locks := fun l => if σ.locks l = some p then none else σ.locks l }

/-- Give one lock to a process. -/
def acquire (σ : Config Db Lock Event Id Err Req) (p : ℕ) (l : Lock) :
    Config Db Lock Event Id Err Req :=
  { σ with locks := Function.update σ.locks l (some p) }

/-- Execute one statement that needs no outside choice. A lock held by another
process blocks, and so does an instant that lies ahead. -/
def statement (σ : Config Db Lock Event Id Err Req) (p : ℕ)
    (proc : Proc Db Lock Event Id Err Req) : Option (Config Db Lock Event Id Err Req) :=
  let agent : Agent Req := ⟨p, proc.req⟩
  match proc.prog with
  | .done _ | .fail _ | .fresh _ => none
  | .read k => some (σ.setProc p { proc with prog := k (proc.pend σ.world.db) })
  | .observe ev k =>
    let seen := proc.pend σ.world.db
    some ({ σ with world := σ.world.push agent (ev seen) σ.world.db }.setProc p
      { proc with prog := k seen })
  | .clock k => some (σ.setProc p { proc with prog := k σ.world.now })
  | .sleep t k =>
    if t ≤ σ.world.now then some (σ.setProc p { proc with prog := k }) else none
  | .lock l k =>
    if σ.locks l = none ∨ σ.locks l = some p then
      some ((σ.acquire p l).setProc p { proc with prog := k })
    else none
  | .write f k => some (σ.setProc p { proc with prog := k, pend := f ∘ proc.pend })
  | .commit ev k =>
    some (({ σ with world := σ.world.push agent ev (proc.pend σ.world.db) }.release p).setProc p
      { proc with prog := k, pend := id })
  | .rollback k => some ((σ.release p).setProc p { proc with prog := k, pend := id })

/-- The machine. -/
def exec (body : Req → Program Db Lock Event Id Err Unit) (σ : Config Db Lock Event Id Err Req) :
    Action Id Req → Option (Config Db Lock Event Id Err Req)
  | .spawn p req =>
    match σ.procs p with
    | none => some (σ.setProc p ⟨req, body req, id⟩)
    | some _ => none
  | .step p => (σ.procs p).bind fun proc => σ.statement p proc
  | .draw p x => (σ.procs p).bind fun proc =>
    match proc.prog, σ.world.issued.find? x with
    | .fresh k, none =>
      some ({ σ with world := σ.world.issue x p }.setProc p { proc with prog := k x })
    | _, _ => none
  | .tick n => some { σ with world := σ.world.tick n }
  | .crash p => (σ.procs p).map fun proc =>
    (σ.release p).setProc p { proc with prog := .done (), pend := id }

omit [DecidableEq Id] in
/-- A statement continues the history. -/
theorem extends_statement {σ τ : Config Db Lock Event Id Err Req} {p : ℕ}
    {proc : Proc Db Lock Event Id Err Req} (h : σ.statement p proc = some τ) :
    σ.world.Extends τ.world := by
  obtain ⟨req, prog, pend⟩ := proc
  cases prog with
  | done | fail | fresh => cases h
  | read | clock | write | rollback =>
    obtain rfl := Option.some.inj h
    exact .refl _
  | sleep | lock =>
    obtain ⟨-, hτ⟩ := Option.ite_none_right_eq_some.mp h
    obtain rfl := Option.some.inj hτ
    exact .refl _
  | observe | commit =>
    obtain rfl := Option.some.inj h
    exact World.extends_push _ _ _ _

/-- An action continues the history. -/
theorem extends_exec {body : Req → Program Db Lock Event Id Err Unit}
    {σ τ : Config Db Lock Event Id Err Req} {act : Action Id Req} (h : σ.exec body act = some τ) :
    σ.world.Extends τ.world := by
  cases act with
  | spawn p req =>
    simp only [exec] at h
    split at h
    · obtain rfl := Option.some.inj h
      exact .refl _
    · cases h
  | step p =>
    obtain ⟨proc, -, hstep⟩ := Option.bind_eq_some_iff.mp h
    exact extends_statement hstep
  | draw p x =>
    obtain ⟨proc, -, hdraw⟩ := Option.bind_eq_some_iff.mp h
    split at hdraw
    · obtain rfl := Option.some.inj hdraw
      exact ⟨rfl, List.suffix_refl _⟩
    · cases hdraw
  | tick n =>
    obtain rfl := Option.some.inj h
    exact ⟨rfl, List.suffix_refl _⟩
  | crash p =>
    obtain ⟨proc, -, rfl⟩ := Option.map_eq_some_iff.mp h
    exact .refl _

/-- A configuration in which no request has arrived yet. -/
def start (init : Db) (now : ℕ) (ids : Table (Prod.fst : Id × Option ℕ → Id)) :
    Config Db Lock Event Id Err Req where
  world := ⟨init, [], now, ids⟩
  locks _ := none
  procs _ := none

/-- One action, where every arriving request is admitted by `Allowed`. -/
def Step (body : Req → Program Db Lock Event Id Err Unit) (Allowed : Req → Prop)
    (σ τ : Config Db Lock Event Id Err Req) : Prop :=
  ∃ act : Action Id Req, (∀ p req, act = .spawn p req → Allowed req) ∧ σ.exec body act = some τ

/-- Reachability by any number of actions. -/
def Reaches (body : Req → Program Db Lock Event Id Err Unit) (Allowed : Req → Prop) :
    Config Db Lock Event Id Err Req → Config Db Lock Event Id Err Req → Prop :=
  Relation.ReflTransGen (Step body Allowed)

/-- Execute a schedule. -/
def run (body : Req → Program Db Lock Event Id Err Unit) (σ : Config Db Lock Event Id Err Req) :
    List (Action Id Req) → Option (Config Db Lock Event Id Err Req)
  | [] => some σ
  | act :: acts => (σ.exec body act).bind fun τ => run body τ acts

/-- An executed schedule is a run of the machine. -/
theorem reaches_of_run {body : Req → Program Db Lock Event Id Err Unit} {Allowed : Req → Prop}
    {acts : List (Action Id Req)} {σ τ : Config Db Lock Event Id Err Req}
    (hallowed : ∀ p req, .spawn p req ∈ acts → Allowed req)
    (hrun : σ.run body acts = some τ) : Reaches body Allowed σ τ := by
  induction acts generalizing σ with
  | nil =>
    obtain rfl : σ = τ := by simpa [run] using hrun
    exact .refl
  | cons act acts ih =>
    obtain ⟨ρ, hexec, hrest⟩ := Option.bind_eq_some_iff.mp hrun
    refine .head ⟨act, fun p req hact => hallowed p req (by simp [hact]), hexec⟩ ?_
    exact ih (fun p req hmem => hallowed p req (by simp [hmem])) hrest

end Config

end NestApi.Txn
