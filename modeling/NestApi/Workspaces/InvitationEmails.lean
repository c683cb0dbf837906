import NestApi.SendLimit.DestinationSendLimit
import NestApi.System

/-!
# Invitation emails

Inviting and inviting again enqueue a job that carries the raw token, since only its hash is
stored. A queued job runs as often as the queue likes, at any time and in any order, while
requests go on. Each run reads the invitation, its workspace and the inviter, asks the send
limit and sends the email.
-/

namespace NestApi

open Txn

/-! ### Jobs -/

/-- `WorkspaceInvitationEmailJobPayloadDto`, with the history that ends in the commit of the
token. No handler sees that history. -/
structure InvitationEmailJob where
  invitationId : Uuid
  token : String
  inviterId : Uuid
  minted : List (Entry Database Event Request)

/-- The caller of `create` and `resend`, who is named in the email. -/
def Request.inviter? : Request → Option Uuid
  | .createInvitation actorId _ _ => some actorId
  | .resendInvitation actorId _ _ _ => some actorId
  | _ => none

def Event.createsInvitation : Event → Bool
  | .rosterChanged .createInvitation _ _ _ _ => true
  | _ => false

/-- The entry commits the hash of this token, drawn by its process, to a new invitation or to
one that is sent again. -/
def Mints (env : Env) (world : SystemWorld) (e : Entry Database Event Request)
    (l : List (Entry Database Event Request)) (invitationId : Uuid) (token : String) : Prop :=
  (e.event = .invitationResent invitationId ∨ e.event.createsInvitation = true ∧
      (stateOf world.init l).workspaceInvitations.find? invitationId = none) ∧
    world.issued.find? token = some (token, some e.agent.pid) ∧
      ∃ i ∈ e.db.workspaceInvitations.find? invitationId,
        i.tokenHash = env.hashOpaqueToken token

instance (env : Env) (world : SystemWorld) (e : Entry Database Event Request)
    (l : List (Entry Database Event Request)) (invitationId : Uuid) (token : String) :
    Decidable (Mints env world e l invitationId token) := by
  unfold Mints
  infer_instance

/-! ### Emails -/

/-- What a delivery takes from configuration and from the functions it calls. -/
structure MailEnv where
  webBaseUrl : String
  encodeURIComponent : String → String
  canonicalEmailDestination : String → String
  /-- The keyed hash of a destination. -/
  digest : String → String

def acceptUrl (mail : MailEnv) (token : String) : String :=
  mail.webBaseUrl ++ "/invitations/accept?token=" ++ mail.encodeURIComponent token

/-- An email of the template `workspace-invitation`. -/
structure InvitationEmail where
  recipient : String
  workspaceName : String
  inviterName : String
  roleName : String
  acceptUrl : String
  expiresInDays : ℕ

/-! ### Deliveries -/

/-- How far a delivery has come. -/
inductive DeliveryStage
  | invitationRead
  | workspaceRead (workspaceName : String)
  | nothingToSend
  /-- Everything is read. -/
  | composed (email : InvitationEmail)
  /-- The send limit has counted the attempt with this number, whatever it answered. -/
  | counted (email : InvitationEmail) (attempt : ℕ)
  /-- `sendTemplate` has been called. -/
  | sent (email : InvitationEmail) (attempt : ℕ)

namespace DeliveryStage

/-- The attempt that counts against the destination. -/
def attempt? : DeliveryStage → Option ℕ
  | .counted _ i | .sent _ i => some i
  | _ => none

/-- The attempt whose send has not begun. -/
def unsent? : DeliveryStage → Option ℕ
  | .counted _ i => some i
  | _ => none

/-- The email that was sent. -/
def sent? : DeliveryStage → Option InvitationEmail
  | .sent email _ => some email
  | _ => none

end DeliveryStage

/-- A run of a job that found its invitation pending, with the history and the clock at that
query. -/
structure Delivery where
  job : InvitationEmailJob
  read : List (Entry Database Event Request)
  readAt : ℕ
  invitation : WorkspaceInvitation
  stage : DeliveryStage

/-- The system, the jobs of the queue and what became of their runs. A job is never removed,
since it can always run once more. -/
structure MailState where
  config : SystemConfig
  queue : List InvitationEmailJob
  deliveries : List Delivery
  limits : SendState

inductive MailAction
  /-- A request arrives or goes on, or time passes. -/
  | system (act : Txn.Action Uuid Request)
  /-- `queueInvitationEmail`, `later` commits after the one it is about. -/
  | enqueue (later : ℕ) (invitationId : Uuid) (token : String)
  | begin (job : ℕ)
  | readWorkspace (delivery : ℕ)
  /-- The names of an account are not among its columns here: the query answers `fullName`. -/
  | readInviter (delivery : ℕ) (fullName : String)
  | reserve (delivery : ℕ)
  | loseReserve (delivery : ℕ)
  | send (delivery : ℕ)
  /-- The rest of the send limit: its clock, other sends, and how the sends end. -/
  | limits (act : SendAction)

/-- The attempt that an action settles. -/
def SendAction.attempt? : SendAction → Option ℕ
  | .succeed i | .fail i | .release i | .loseRelease i => some i
  | _ => none

namespace MailState

/-- No job is queued yet. -/
def initial (config : SystemConfig) : MailState := ⟨config, [], [], .initial⟩

section Exec

variable (env : Env) (mail : MailEnv) (s : MailState)

/-- The query for the invitation, which asks that it is pending. -/
def findPending (db : Database) (invitationId : Uuid) : Option WorkspaceInvitation :=
  (db.workspaceInvitations.find? invitationId).filter fun i => i.status = .pending

/-- A delivery goes on. -/
def advance (k : ℕ) (next : Delivery → Option DeliveryStage) : Option MailState := do
  let d ← s.deliveries[k]?
  let stage ← next d
  some { s with deliveries := s.deliveries.set k { d with stage } }

/-- The name of the live workspace, if there is one. -/
def afterWorkspace (d : Delivery) : Option DeliveryStage :=
  match d.stage with
  | .invitationRead =>
    match s.config.world.db.scopedWorkspace? d.invitation.workspaceId with
    | some workspace => some (.workspaceRead workspace.name)
    | none => some .nothingToSend
  | _ => none

/-- The email, signed by the inviter or, without a live account, by `Someone`. -/
def afterInviter (fullName : String) (d : Delivery) : Option DeliveryStage :=
  match d.stage with
  | .workspaceRead workspaceName => some (.composed {
      recipient := d.invitation.email
      workspaceName
      inviterName := if (s.config.world.db.scopedUser? d.job.inviterId).isSome then fullName
        else "Someone"
      roleName := d.invitation.role.value
      acceptUrl := acceptUrl mail d.job.token
      expiresInDays := env.invitationExpiresInDays })
  | _ => none

/-- The attempt is counted. -/
def afterReserve (d : Delivery) : Option DeliveryStage :=
  match d.stage with
  | .composed email => some (.counted email s.limits.attempts.length)
  | _ => none

/-- The email is sent, if the send limit has answered with a reservation. -/
def afterSend (d : Delivery) : Option DeliveryStage :=
  match d.stage with
  | .counted email i =>
    if (s.limits.attempts[i]?).map SendAttempt.status = some .inFlight then
      some (.sent email i)
    else none
  | _ => none

/-- `reserve` for the address of the invitation. -/
def reserveBy (k : ℕ) (act : SendPurpose → String → SendAction) : Option MailState := do
  let d ← s.deliveries[k]?
  let t ← s.advance k s.afterReserve
  let limits ← SendAction.exec mail.digest s.limits
    (act .workspaceInvitation (mail.canonicalEmailDestination d.invitation.email))
  some { t with limits }

/-- `queueInvitationEmail` and `deliverInvitationEmail`, one query at a time. -/
def exec (s : MailState) : MailAction → Option MailState
  | .system act => (s.config.exec (body env) act).map fun config => { s with config }
  | .enqueue later invitationId token =>
    match s.config.world.log.drop later with
    | [] => none
    | e :: l =>
      if Mints env s.config.world e l invitationId token then
        e.agent.req.inviter?.map fun inviterId =>
          { s with queue := s.queue ++ [⟨invitationId, token, inviterId, e :: l⟩] }
      else none
  | .begin job =>
    (s.queue[job]?).map fun job =>
      match findPending s.config.world.db job.invitationId with
      | none => s
      | some invitation => { s with deliveries := s.deliveries ++
          [⟨job, s.config.world.log, s.config.world.now, invitation, .invitationRead⟩] }
  | .readWorkspace k => s.advance k s.afterWorkspace
  | .readInviter k fullName => s.advance k (afterInviter env mail s fullName)
  | .reserve k => s.reserveBy mail k .reserve
  | .loseReserve k => s.reserveBy mail k .loseReserve
  | .send k => s.advance k s.afterSend
  | .limits act =>
    if ∀ i ∈ act.attempt?, ∀ d ∈ s.deliveries, d.stage.unsent? ≠ some i then
      (SendAction.exec mail.digest s.limits act).map fun limits => { s with limits }
    else none

end Exec

end MailState

end NestApi
