/-!
# Programs of database statements

A request handler is a program whose steps are single database statements. The
type is a resumption: each constructor is one statement together with the rest
of the program, so that an interpreter can run other programs between any two
statements. Nothing here depends on a particular database.
-/

namespace NestApi.Txn

/-- A program over a database `Db` with lockable rows `Lock`. It answers with a
value or fails with an error; `Event` is what it reports to the history. -/
inductive Program (Db Lock Event Id Err α : Type) : Type
  /-- The program answers. -/
  | done (a : α)
  /-- The program fails. Undoing the open transaction is a separate step. -/
  | fail (e : Err)
  /-- One query. The snapshot is the committed state with the program's own
  pending writes applied, taken when the statement runs. -/
  | read (k : Db → Program Db Lock Event Id Err α)
  /-- A query that is itself an event of the history. -/
  | observe (ev : Db → Event) (k : Db → Program Db Lock Event Id Err α)
  /-- Read the wall clock. -/
  | clock (k : Nat → Program Db Lock Event Id Err α)
  /-- Wait until the wall clock has reached an instant. -/
  | sleep (t : Nat) (k : Program Db Lock Event Id Err α)
  /-- Draw an identifier that was never drawn before. -/
  | fresh (k : Id → Program Db Lock Event Id Err α)
  /-- Lock one row until the transaction ends, waiting for another holder. -/
  | lock (l : Lock) (k : Program Db Lock Event Id Err α)
  /-- A pending write, invisible to others before the commit. -/
  | write (f : Db → Db) (k : Program Db Lock Event Id Err α)
  /-- Apply the pending writes and release every lock. -/
  | commit (ev : Event) (k : Program Db Lock Event Id Err α)
  /-- Drop the pending writes and release every lock. -/
  | rollback (k : Program Db Lock Event Id Err α)

namespace Program

variable {Db Lock Event Id Err α β : Type}

/-- Run `x`, then continue with `f` on its answer or its error. -/
def handle (x : Program Db Lock Event Id Err α)
    (f : Except Err α → Program Db Lock Event Id Err β) : Program Db Lock Event Id Err β :=
  match x with
  | .done a => f (.ok a)
  | .fail e => f (.error e)
  | .read k => .read fun db => (k db).handle f
  | .observe ev k => .observe ev fun db => (k db).handle f
  | .clock k => .clock fun t => (k t).handle f
  | .sleep t k => .sleep t (k.handle f)
  | .fresh k => .fresh fun i => (k i).handle f
  | .lock l k => .lock l (k.handle f)
  | .write g k => .write g (k.handle f)
  | .commit ev k => .commit ev (k.handle f)
  | .rollback k => .rollback (k.handle f)

/-- Sequencing: an error skips the continuation. -/
def bind (x : Program Db Lock Event Id Err α)
    (f : α → Program Db Lock Event Id Err β) : Program Db Lock Event Id Err β :=
  x.handle fun
    | .ok a => f a
    | .error e => .fail e

instance : Monad (Program Db Lock Event Id Err) where
  pure := .done
  bind := bind

/-- Sequencing is associative, so a chain of statements can be read from the left. -/
instance : LawfulMonad (Program Db Lock Event Id Err) := LawfulMonad.mk' _
  (fun x => by
    change x.bind _ = x
    unfold bind
    induction x <;> simp_all [handle])
  (fun _ _ => rfl)
  (fun x f g => by
    change (x.bind f).bind g = x.bind fun a => (f a).bind g
    unfold bind
    induction x <;> simp_all [handle])

/-- `try … catch`: the handler runs on an error. -/
def catchError (x : Program Db Lock Event Id Err α)
    (h : Err → Program Db Lock Event Id Err α) : Program Db Lock Event Id Err α :=
  x.handle fun
    | .ok a => .done a
    | .error e => h e

/-- Continue only if `p` holds. -/
def ensure (p : Prop) [Decidable p] (e : Err) : Program Db Lock Event Id Err Unit :=
  if p then .done () else .fail e

/-- Run `x` only if `p` holds. -/
def onlyIf (p : Prop) [Decidable p] (x : Program Db Lock Event Id Err Unit) :
    Program Db Lock Event Id Err Unit :=
  if p then x else .done ()

/-- Continue with the value, or fail when there is none. -/
def orThrow (x : Option α) (e : Err) : Program Db Lock Event Id Err α :=
  match x with
  | some a => .done a
  | none => .fail e

/-- A transaction: commit when the body answers, roll back when it fails. The
event of a commit depends on the body's answer. -/
def transaction (body : Program Db Lock Event Id Err α) (ev : α → Event) :
    Program Db Lock Event Id Err α :=
  body.handle fun
    | .ok a => .commit (ev a) (.done a)
    | .error e => .rollback (.fail e)

/-- One query returning a value computed from its snapshot. -/
def select (f : Db → α) : Program Db Lock Event Id Err α :=
  .read fun db => .done (f db)

/-- One query that is an event of the history. -/
def selectObserved (ev : Db → Event) (f : Db → α) : Program Db Lock Event Id Err α :=
  .observe ev fun db => .done (f db)

/-- The current time. -/
def now : Program Db Lock Event Id Err Nat := .clock .done

/-- Wait for an instant. -/
def sleepUntil (t : Nat) : Program Db Lock Event Id Err Unit := .sleep t (.done ())

/-- A never used identifier. -/
def freshId : Program Db Lock Event Id Err Id := .fresh .done

/-- Lock one row. -/
def lockRow (l : Lock) : Program Db Lock Event Id Err Unit := .lock l (.done ())

/-- Lock several rows, one statement after the other. -/
def lockRows : List Lock → Program Db Lock Event Id Err Unit
  | [] => .done ()
  | l :: ls => .lock l (lockRows ls)

/-- Run a program for each element of a list, one after the other. -/
def forEach (xs : List β) (f : β → Program Db Lock Event Id Err Unit) :
    Program Db Lock Event Id Err Unit :=
  match xs with
  | [] => .done ()
  | x :: xs => (f x).bind fun _ => forEach xs f

/-- Add a pending write. -/
def modify (f : Db → Db) : Program Db Lock Event Id Err Unit := .write f (.done ())

/-- Report an event that belongs to no query. -/
def emit (ev : Event) : Program Db Lock Event Id Err Unit :=
  .observe (fun _ => ev) fun _ => .done ()

/-- Report how a program ended. -/
def report (x : Program Db Lock Event Id Err α) (ev : Except Err α → Event) :
    Program Db Lock Event Id Err Unit :=
  x.handle fun r => emit (ev r)

/-- How a program of queries ends when all of them see one database. -/
def outcome (db : Db) : Program Db Lock Event Id Err α → Option (Except Err α)
  | .done a => some (.ok a)
  | .fail e => some (.error e)
  | .read k => (k db).outcome db
  | .observe _ k => (k db).outcome db
  | _ => none

end Program

end NestApi.Txn
