import NestApi.Judgements.Platform
import NestApi.Txn.Schedule

/-!
# Runs of the system

A run starts from any database, with every identifier in it counted as drawn. Whatever the
guarantee preserves holds after every run, which is how each law below is proved: one step
lemma about a commit, and this induction. At the end stands a small database for runs that
show something on fixed inputs.
-/

namespace NestApi

open Txn

/-! ### Starting -/

/-- Every identifier that a database mentions. -/
def Database.identifiers (db : Database) : List Uuid :=
  db.users.rows.map User.id ++ db.workspaces.rows.map Workspace.id ++
    db.workspaceMemberships.rows.flatMap (fun m => [m.id, m.workspaceId]) ++
      db.workspaceInvitations.rows.map WorkspaceInvitation.id ++
        db.refreshTokens.rows.flatMap fun t => [t.id, t.familyId]

/-- The identifiers of the initial rows, drawn by nobody. -/
def Database.drawn (db : Database) : Table (Prod.fst : Uuid × Option ℕ → Uuid) where
  rows := db.identifiers.dedup.map fun x => (x, none)
  nodup := by simpa [Function.comp_def] using List.nodup_dedup db.identifiers

/-- No request has arrived yet. -/
def start (init : Database) (now : ℕ) : SystemConfig := Config.start init now init.drawn

/-- `σ` is reached from `init` by a run in which every arriving request is admitted. -/
def RunsTo (env : Env) (Allowed : Request → Prop) (init : Database) (σ : SystemConfig) : Prop :=
  ∃ now, Config.Reaches (body env) Allowed (start init now) σ

theorem mem_identifiers {db : Database} {x : Uuid} (h : db.Mentions x) : x ∈ db.identifiers := by
  unfold Database.identifiers
  simp only [List.mem_append, List.mem_map, List.mem_flatMap]
  rcases h with ⟨u, hu, hx⟩ | ⟨ws, hws, hx⟩ | ⟨m, hm, hx⟩ | ⟨i, hi, hx⟩ | ⟨t, ht, hx⟩
  · exact .inl (.inl (.inl (.inl ⟨u, hu, hx⟩)))
  · exact .inl (.inl (.inl (.inr ⟨ws, hws, hx⟩)))
  · exact .inl (.inl (.inr ⟨m, hm, by simpa [eq_comm] using hx⟩))
  · exact .inl (.inr ⟨i, hi, hx⟩)
  · exact .inr ⟨t, ht, by simpa [eq_comm] using hx⟩

theorem drawn_of_mentions {db : Database} {x : Uuid} (h : db.Mentions x) :
    db.drawn.find? x ≠ none := by
  have hmem : (x, none) ∈ db.drawn := by
    refine List.mem_map.mpr ⟨x, ?_, rfl⟩
    exact List.mem_dedup.mpr (mem_identifiers h)
  have hfind := Table.find?_of_mem hmem
  simp only at hfind
  simp [hfind]

/-! ### After any run -/

section Runs

variable {env : Env} {Allowed : Request → Prop} {init : Database} {σ : SystemConfig}

/-- A run of the machine is a run of the abstract system. -/
theorem RunsTo.moves (h : RunsTo env Allowed init σ) :
    ∃ now, Moves guarantee ⟨init, [], now, init.drawn⟩ σ.world ∧ Inv σ.world ∧
      ∀ e ∈ σ.world.log, Allowed e.agent.req := by
  obtain ⟨now, hreach⟩ := h
  have hinv : Inv ⟨init, [], now, init.drawn⟩ := .start fun _ => drawn_of_mentions
  exact ⟨now, protocol.refines (body_admitted Allowed) hinv hreach⟩

theorem RunsTo.init_eq (h : RunsTo env Allowed init σ) : σ.world.init = init := by
  obtain ⟨now, hmoves, -⟩ := h.moves
  exact hmoves.init_eq

theorem RunsTo.inv (h : RunsTo env Allowed init σ) : Inv σ.world := by
  obtain ⟨now, -, hinv, -⟩ := h.moves
  exact hinv

/-- What holds of the empty history and is kept by every commit holds after any run. -/
theorem RunsTo.history (h : RunsTo env Allowed init σ) {J : SystemWorld → Prop}
    (hstart : ∀ now, J ⟨init, [], now, init.drawn⟩)
    (htime : ∀ {w n}, J w → J (w.tick n)) (hdraw : ∀ {w x p}, J w → J (w.issue x p))
    (hcommit : ∀ {w a L ev db}, Inv w → w.init = init →
      (∀ e ∈ (w.push a ev db).log, Allowed e.agent.req) → Commit a L w ev db → J w →
        J (w.push a ev db)) : J σ.world := by
  obtain ⟨now, hmoves, -, hserved⟩ := h.moves
  have hinv : Inv ⟨init, [], now, init.drawn⟩ := .start fun _ => drawn_of_mentions
  -- the requests of a prefix of the history are requests of the whole of it
  have hall : Inv σ.world ∧ σ.world.init = init ∧
      ((∀ e ∈ σ.world.log, Allowed e.agent.req) → J σ.world) := by
    refine hmoves.invariant (J := fun w => Inv w ∧ w.init = init ∧
      ((∀ e ∈ w.log, Allowed e.agent.req) → J w)) (fun {v v'} hv hmove => ?_)
        ⟨hinv, rfl, fun _ => hstart now⟩
    obtain ⟨hinv, hinit, hJ⟩ := hv
    refine ⟨hinv.move hmove, hmove.init_eq.trans hinit, fun hserved => ?_⟩
    cases hmove with
    | tick n => exact htime (hJ hserved)
    | issue x p => exact hdraw (hJ hserved)
    | act a L ev db h =>
      have hold : ∀ e ∈ v.log, Allowed e.agent.req := fun e he => hserved e (by
        simp [World.push, he])
      exact hcommit hinv hinit hserved h (hJ hold)
  exact hall.2.2 hserved

/-- Every entry was committed within the guarantee, in a world with the history before it. -/
theorem RunsTo.entry (h : RunsTo env Allowed init σ) {e : Entry Database Event Request}
    {l : List (Entry Database Event Request)} (hl : (e :: l) <:+ σ.world.log) :
    ∃ (w : SystemWorld) (L : RowLock → Prop), w.log = l ∧ w.init = init ∧ Inv w ∧
      Commit e.agent L w e.event e.db := by
  obtain ⟨now, hmoves, -⟩ := h.moves
  have hinv : Inv ⟨init, [], now, init.drawn⟩ := .start fun _ => drawn_of_mentions
  obtain ⟨w, L, hlog, hinit, hw, hcommit, -⟩ := protocol.entry hinv hmoves hl
  exact ⟨w, L, hlog, hinit, hw, hcommit⟩

/-- What every commit keeps holds from one point of the history to any later one. -/
theorem RunsTo.persists (h : RunsTo env Allowed init σ)
    {l l' : List (Entry Database Event Request)} {P : Database → Prop} (hl : l <:+ l')
    (hl' : l' <:+ σ.world.log) (hP : P (stateOf init l))
    (hcommit : ∀ {w a L ev db}, Inv w → w.init = init → l <:+ w.log →
      (⟨a, ev, db⟩ :: w.log) <:+ l' → Commit a L w ev db → P w.db → P db) :
    P (stateOf init l') := by
  refine stateOf_persists hl hP fun e k hk hek hPk => ?_
  obtain ⟨w, L, rfl, hinit, hinv, hentry⟩ := h.entry (hek.trans hl')
  rw [← hinit] at hPk
  exact hcommit hinv hinit hk hek hentry hPk

/-- A point of the history, as the invariant sees it. -/
theorem RunsTo.since (h : RunsTo env Allowed init σ)
    {l : List (Entry Database Event Request)} (hl : l <:+ σ.world.log) :
    σ.world.Since 0 (stateOf init l) :=
  ⟨l, hl, Nat.zero_le _, by rw [h.init_eq]⟩

end Runs

/-! ### A small system -/

namespace Sample

/-- Hashes that are legible, and lifetimes of a day. -/
def env : Env where
  hashOpaqueToken token := token
  bcryptCompare password hash := password = hash
  hashPassword password _ := password
  dummyHash := ""
  refreshLifetimeDays := 1
  invitationExpiresInDays := 1

/-- An active, verified account. -/
def user (id : Uuid) : User where
  id := id
  email := id
  username := none
  password := "secret"
  passwordChangedAt := none
  otpHash := none
  otpPurpose := none
  otpExpiresAt := none
  emailVerifiedAt := some 0
  isActive := true
  deletedAt := none
  deletedBy := none
  updatedBy := none

/-- A live workspace. -/
def workspace (id : Uuid) : Workspace where
  id := id
  name := id
  slug := id
  createdBy := none
  updatedBy := none
  deletedAt := none
  deletedBy := none

/-- An active membership of the workspace `acme`, named after its user. -/
def member (userId : Uuid) (role : SeededRoleName) : WorkspaceMembership where
  id := userId ++ "-m"
  workspaceId := "acme"
  userId := userId
  role := role
  status := .active
  joinedAt := 0
  endedAt := none
  invitedBy := none
  notes := none
  createdBy := none
  updatedBy := none

/-- Insert rows one by one. -/
def table {α : Type} (key : α → Uuid) (rows : List α) : Table key :=
  rows.foldl Table.insert Table.empty

/-- One workspace with some members. -/
def database (members : List (Uuid × SeededRoleName)) (guests : List Uuid) : Database where
  users := table User.id ((members.map fun m => user m.1) ++ guests.map user)
  workspaces := table Workspace.id [workspace "acme"]
  workspaceMemberships := table WorkspaceMembership.id (members.map fun m => member m.1 m.2)
  workspaceInvitations := .empty
  refreshTokens := .empty
  userRoles := .empty

/-- A pending invitation to `acme`, named after its address, for a new member of staff. -/
def invitation (email inviterId : Uuid) : WorkspaceInvitation where
  id := email ++ "-i"
  workspaceId := "acme"
  email := email
  invitedUserId := some email
  role := .workspaceStaff
  tokenHash := "link"
  status := .pending
  invitedBy := some inviterId
  expiresAt := 9000
  acceptedAt := none
  acceptedBy := none
  revokedAt := none
  revokedBy := none
  createdBy := some inviterId
  updatedBy := some inviterId

/-- The workspace with an owner, and somebody the owner has invited. -/
def invited (ownerId guestId : Uuid) : Database :=
  { database [(ownerId, .workspaceOwner)] [guestId] with
    workspaceInvitations := table WorkspaceInvitation.id [invitation guestId ownerId] }

/-- The name of the identifier that is drawn when `n` were drawn before. -/
def name (n : ℕ) : Uuid := String.ofList ('#' :: List.replicate n 'i')

/-- Carry out a schedule over a database. -/
def perform (init : Database) (now : ℕ) (orders : List (Order Request)) : SystemConfig :=
  (start init now).performAll (body env) name 80 orders

theorem runsTo_allowed {Allowed : Request → Prop} {init : Database} {now : ℕ}
    {orders : List (Order Request)} (h : ∀ o ∈ orders, ∀ req ∈ o.request, Allowed req) :
    RunsTo env Allowed init (perform init now orders) :=
  ⟨now, Config.reaches_performAll h⟩

theorem runsTo_perform (init : Database) (now : ℕ) (orders : List (Order Request)) :
    RunsTo env (fun _ => True) init (perform init now orders) :=
  runsTo_allowed (by simp)

end Sample

end NestApi
