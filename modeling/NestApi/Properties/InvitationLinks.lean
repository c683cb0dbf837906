import NestApi.Properties.Redemption
import NestApi.Workspaces.InvitationEmails

/-!
# The link in an invitation email

A delivery asks that the invitation is pending. It compares neither the hash of its token nor
the expiry, so a job that comes after a resend sends a dead link and uses up the budget of the
address, and a job that comes too late sends a lapsed one. A job that comes in time sends the
link of the row it read: between its commit and that query only a resend replaces the link.
-/

namespace NestApi

open Txn

variable {env : Env} {mail : MailEnv} {init : Database} {log : List (Entry Database Event Request)}
  {σ : SystemConfig} {s t : MailState} {d : Delivery} {job : InvitationEmailJob} {now : ℕ}

/-! ### What a delivery should do -/

namespace Delivery

/-- The row that the job read, if the token opens it then. -/
def Opens (env : Env) (init : Database) (d : Delivery) (token : String) : Prop :=
  ∃ i ∈ (stateOf init d.read).workspaceInvitations.find? d.job.invitationId,
    i.tokenHash = env.hashOpaqueToken token ∧ i.status = .pending ∧ d.readAt < i.expiresAt

instance (env : Env) (init : Database) (d : Delivery) (token : String) :
    Decidable (d.Opens env init token) :=
  inferInstanceAs (Decidable (∃ i ∈ _, _))

/-- The row that the job read has another token. -/
def Superseded (env : Env) (init : Database) (d : Delivery) : Prop :=
  ∀ i ∈ (stateOf init d.read).workspaceInvitations.find? d.job.invitationId,
    i.tokenHash ≠ env.hashOpaqueToken d.job.token

instance (env : Env) (init : Database) (d : Delivery) : Decidable (d.Superseded env init) :=
  inferInstanceAs (Decidable (∀ i ∈ _, _))

/-- The invitation was sent again after the job got its token and before it read the row. -/
def Replaced (d : Delivery) : Prop :=
  ∃ r ∈ d.read.take (d.read.length - d.job.minted.length),
    r.event = .invitationResent d.job.invitationId

instance (d : Delivery) : Decidable d.Replaced := inferInstanceAs (Decidable (∃ r ∈ _, _))

/-- The job read the row before the expiry that came with its token. -/
def InTime (init : Database) (d : Delivery) : Prop :=
  ∀ i ∈ (stateOf init d.job.minted).workspaceInvitations.find? d.job.invitationId,
    d.readAt < i.expiresAt

instance (init : Database) (d : Delivery) : Decidable (d.InTime init) :=
  inferInstanceAs (Decidable (∀ i ∈ _, _))

end Delivery

/-- Every email that was sent opens its invitation, and a superseded job has sent nothing and
used up nothing. -/
structure LinksOpen (env : Env) (mail : MailEnv) (init : Database) (s : MailState) : Prop where
  sent : ∀ d ∈ s.deliveries, ∀ email ∈ d.stage.sent?,
    email.acceptUrl = acceptUrl mail d.job.token ∧ d.Opens env init d.job.token
  superseded : ∀ d ∈ s.deliveries, d.Superseded env init → d.stage.attempt? = none

/-- No delivery asks the send limit for a job whose invitation was sent again before the job
read it, and none sends an email for a job that read it too late. -/
def Timely (init : Database) (s : MailState) : MailAction → Prop
  | .reserve k | .loseReserve k => ∀ d ∈ s.deliveries[k]?, ¬ d.Replaced
  | .send k => ∀ d ∈ s.deliveries[k]?, d.InTime init
  | _ => True

instance (init : Database) (s : MailState) (act : MailAction) : Decidable (Timely init s act) := by
  cases act <;> unfold Timely <;> infer_instance

/-! ### Jobs and deliveries over the history -/

/-- The job carries the token of its invitation after the commit it comes from. -/
structure InvitationEmailJob.Sound (env : Env) (init : Database)
    (log : List (Entry Database Event Request)) (job : InvitationEmailJob) : Prop where
  minted : job.minted <:+ log
  link : ∃ i ∈ (stateOf init job.minted).workspaceInvitations, i.id = job.invitationId ∧
    i.tokenHash = env.hashOpaqueToken job.token

/-- The delivery read the pending row of its job, after the commit that the job comes from. -/
structure Delivery.Sound (env : Env) (init : Database)
    (log : List (Entry Database Event Request)) (d : Delivery) : Prop where
  job : d.job.Sound env init d.read
  read : d.read <:+ log
  invitation : d.invitation ∈ (stateOf init d.read).workspaceInvitations
  id_eq : d.invitation.id = d.job.invitationId
  pending : d.invitation.status = .pending

/-- The email that is composed. -/
def DeliveryStage.email? : DeliveryStage → Option InvitationEmail
  | .composed email | .counted email _ | .sent email _ => some email
  | _ => none

/-- How far the delivery has come, given that it was timely. -/
structure Delivery.Within (mail : MailEnv) (init : Database) (d : Delivery) : Prop where
  email : ∀ email ∈ d.stage.email?, email.acceptUrl = acceptUrl mail d.job.token
  counted : d.stage.attempt? ≠ none → ¬ d.Replaced
  sent : d.stage.sent? ≠ none → d.InTime init

/-- Before the send limit is asked, only the link in the email matters. -/
theorem Delivery.within_of_uncounted (hattempt : d.stage.attempt? = none)
    (hemail : ∀ email ∈ d.stage.email?, email.acceptUrl = acceptUrl mail d.job.token) :
    d.Within mail init where
  email := hemail
  counted hcounted := absurd hattempt hcounted
  sent hsent := by
    cases hstage : d.stage with
    | sent => simp [hstage, DeliveryStage.attempt?] at hattempt
    | _ => simp [hstage, DeliveryStage.sent?] at hsent

theorem InvitationEmailJob.Sound.mono {log' : List (Entry Database Event Request)}
    (h : job.Sound env init log) (hlog : log <:+ log') : job.Sound env init log' where
  minted := h.minted.trans hlog
  link := h.link

theorem Delivery.Sound.mono {log' : List (Entry Database Event Request)}
    (h : d.Sound env init log) (hlog : log <:+ log') : d.Sound env init log' :=
  { h with read := h.read.trans hlog }

/-- A resend between the commit of a job and its query replaces the token of the job. -/
theorem Delivery.replaced_of_resent {r : Entry Database Event Request}
    {m : List (Entry Database Event Request)} (hminted : d.job.minted <:+ m)
    (hread : (r :: m) <:+ d.read) (hresent : r.event = .invitationResent d.job.invitationId) :
    d.Replaced := by
  obtain ⟨later, hlater⟩ := hread
  obtain ⟨between, hbetween⟩ := hminted
  have hsplit : d.read = (later ++ r :: between) ++ d.job.minted := by
    rw [← hlater, ← hbetween, List.append_assoc, List.cons_append]
  refine ⟨r, ?_, hresent⟩
  rw [hsplit, List.length_append, Nat.add_sub_cancel, List.take_left]
  simp

/-- Without a resend in between, the row that was read has the link of the job. -/
theorem Delivery.Sound.link (h : d.Sound env init σ.world.log)
    (hrun : RunsTo env (fun _ => True) init σ) (hkept : ¬ d.Replaced) :
    d.invitation.tokenHash = env.hashOpaqueToken d.job.token ∧
      (d.InTime init → d.readAt < d.invitation.expiresAt) := by
  obtain ⟨i, hi, hid, hhash⟩ := h.job.link
  obtain ⟨i', hi', hevolves, hlink⟩ := hrun.linkKept h.job.minted h.read hi
    fun r m hm hr hresent => hkept (Delivery.replaced_of_resent hm hr (hid ▸ hresent))
  -- the kept row is the row that was read
  obtain rfl : i' = d.invitation :=
    Table.eq_of_key hi' h.invitation (hevolves.id_eq.trans (hid.trans h.id_eq.symm))
  obtain ⟨htoken, hexpiry⟩ := Prod.mk.inj hlink
  refine ⟨htoken.trans hhash, fun htime => ?_⟩
  rw [hexpiry]
  exact htime i (hid ▸ Table.find?_of_mem hi)

/-! ### One step -/

/-- What holds after every timely run. -/
structure MailInv (env : Env) (mail : MailEnv) (init : Database) (s : MailState) : Prop where
  run : RunsTo env (fun _ => True) init s.config
  queue : ∀ job ∈ s.queue, job.Sound env init s.config.world.log
  deliveries : ∀ d ∈ s.deliveries, d.Sound env init s.config.world.log
  within : ∀ d ∈ s.deliveries, d.Within mail init

namespace MailState

theorem advance_eq_some {k : ℕ} {next : Delivery → Option DeliveryStage} :
    s.advance k next = some t ↔ ∃ d stage, s.deliveries[k]? = some d ∧ next d = some stage ∧
      t = { s with deliveries := s.deliveries.set k { d with stage } } := by
  simp only [advance, Option.bind_eq_bind, Option.bind_eq_some_iff, Option.some.injEq]
  constructor
  · rintro ⟨d, hd, stage, hstage, rfl⟩
    exact ⟨d, stage, hd, hstage, rfl⟩
  · rintro ⟨d, stage, hd, hstage, rfl⟩
    exact ⟨d, hd, stage, hstage, rfl⟩

end MailState

/-- A delivery that goes on keeps the invariant when its new stage does. -/
theorem MailInv.advance (h : MailInv env mail init s) {k : ℕ}
    {next : Delivery → Option DeliveryStage} (hadvance : s.advance k next = some t)
    (hnext : ∀ d stage, s.deliveries[k]? = some d → next d = some stage → d.Within mail init →
      Delivery.Within mail init { d with stage }) : MailInv env mail init t := by
  obtain ⟨d, stage, hd, hstage, rfl⟩ := MailState.advance_eq_some.mp hadvance
  have hmem : d ∈ s.deliveries := List.mem_of_getElem? hd
  refine ⟨h.run, h.queue, fun d' hd' => ?_, fun d' hd' => ?_⟩
  · rcases List.mem_or_eq_of_mem_set hd' with hold | rfl
    · exact h.deliveries d' hold
    · have hsound := h.deliveries d hmem
      exact ⟨hsound.job, hsound.read, hsound.invitation, hsound.id_eq, hsound.pending⟩
  · rcases List.mem_or_eq_of_mem_set hd' with hold | rfl
    · exact h.within d' hold
    · exact hnext d stage hd hstage (h.within d hmem)

/-- A timely delivery asks the send limit. -/
theorem MailInv.reserveBy (h : MailInv env mail init s) {k : ℕ}
    {act : SendPurpose → String → SendAction} (htimely : ∀ d ∈ s.deliveries[k]?, ¬ d.Replaced)
    (hreserve : s.reserveBy mail k act = some t) : MailInv env mail init t := by
  simp only [MailState.reserveBy, Option.bind_eq_bind, Option.bind_eq_some_iff,
    Option.some.injEq] at hreserve
  obtain ⟨-, -, u, hadvance, limits, -, rfl⟩ := hreserve
  have hcounted : MailInv env mail init u := by
    refine h.advance hadvance fun d stage hd hnext hwithin => ?_
    simp only [MailState.afterReserve] at hnext
    split at hnext
    · next email hstage =>
      obtain rfl := Option.some.inj hnext
      exact ⟨fun email' h' => hwithin.email email' (by rw [hstage]; exact h'),
        fun _ => htimely d hd, by simp [DeliveryStage.sent?]⟩
    · cases hnext
  exact ⟨hcounted.run, hcounted.queue, hcounted.deliveries, hcounted.within⟩

/-- A job is sound as soon as it is queued. -/
theorem Mints.sound {e : Entry Database Event Request}
    {l : List (Entry Database Event Request)} {invitationId inviterId : Uuid} {token : String}
    {world : SystemWorld} (h : Mints env world e l invitationId token)
    (hl : (e :: l) <:+ log) :
    InvitationEmailJob.Sound env init log ⟨invitationId, token, inviterId, e :: l⟩ := by
  obtain ⟨-, -, i, hi, hhash⟩ := h
  exact ⟨hl, i, Table.mem_of_find? hi, Table.key_of_find? hi, hhash⟩

/-- One action of a timely run. -/
theorem MailInv.exec (h : MailInv env mail init s) {act : MailAction} (htimely : Timely init s act)
    (hexec : s.exec env mail act = some t) : MailInv env mail init t := by
  cases act with
  | system act =>
    obtain ⟨config, hstep, rfl⟩ := Option.map_eq_some_iff.mp hexec
    obtain ⟨now, hreach⟩ := h.run
    have hlog : s.config.world.log <:+ config.world.log := (Config.extends_exec hstep).log
    exact ⟨⟨now, hreach.tail ⟨act, fun _ _ _ => trivial, hstep⟩⟩,
      fun job hjob => (h.queue job hjob).mono hlog,
      fun d hd => (h.deliveries d hd).mono hlog, h.within⟩
  | enqueue later invitationId token =>
    simp only [MailState.exec] at hexec
    split at hexec
    · cases hexec
    · next e l hdrop =>
      obtain ⟨hmints, hmap⟩ := Option.ite_none_right_eq_some.mp hexec
      obtain ⟨inviterId, -, rfl⟩ := Option.map_eq_some_iff.mp hmap
      have hl : (e :: l) <:+ s.config.world.log := hdrop ▸ List.drop_suffix _ _
      refine ⟨h.run, fun job hjob => ?_, h.deliveries, h.within⟩
      rcases List.mem_append.mp hjob with hold | hnew
      · exact h.queue job hold
      · rw [List.mem_singleton.mp hnew]
        exact hmints.sound hl
  | begin k =>
    obtain ⟨job, hjob, ht⟩ := Option.map_eq_some_iff.mp hexec
    have hsound := h.queue job (List.mem_of_getElem? hjob)
    cases hfound : MailState.findPending s.config.world.db job.invitationId with
    | none =>
      rw [hfound] at ht
      exact ht ▸ h
    | some invitation =>
      rw [hfound] at ht
      obtain ⟨hfind, hpending⟩ := Option.filter_eq_some_iff.mp hfound
      have hdb : stateOf init s.config.world.log = s.config.world.db := by
        rw [← h.run.init_eq]
        rfl
      have hmem : invitation ∈ (stateOf init s.config.world.log).workspaceInvitations :=
        hdb ▸ Table.mem_of_find? hfind
      subst ht
      refine ⟨h.run, h.queue, fun d hd => ?_, fun d hd => ?_⟩
      · rcases List.mem_append.mp hd with hold | hnew
        · exact h.deliveries d hold
        · rw [List.mem_singleton.mp hnew]
          exact ⟨hsound, List.suffix_refl _, hmem, Table.key_of_find? hfind,
            by simpa using hpending⟩
      · rcases List.mem_append.mp hd with hold | hnew
        · exact h.within d hold
        · rw [List.mem_singleton.mp hnew]
          exact Delivery.within_of_uncounted rfl (by simp [DeliveryStage.email?])
  | readWorkspace k =>
    refine h.advance hexec fun d stage _ hnext _ => ?_
    have hread : (∃ name, stage = .workspaceRead name) ∨ stage = .nothingToSend := by
      simp only [MailState.afterWorkspace] at hnext
      split at hnext
      · split at hnext
        · exact .inl ⟨_, (Option.some.inj hnext).symm⟩
        · exact .inr (Option.some.inj hnext).symm
      · cases hnext
    rcases hread with ⟨name, rfl⟩ | rfl <;>
      exact Delivery.within_of_uncounted rfl (by simp [DeliveryStage.email?])
  | readInviter k fullName =>
    refine h.advance hexec fun d stage _ hnext _ => ?_
    simp only [MailState.afterInviter] at hnext
    split at hnext
    · obtain rfl := Option.some.inj hnext
      exact Delivery.within_of_uncounted rfl (by simp [DeliveryStage.email?])
    · cases hnext
  | reserve k => exact h.reserveBy htimely hexec
  | loseReserve k => exact h.reserveBy htimely hexec
  | send k =>
    refine h.advance hexec fun d stage hd hnext hwithin => ?_
    simp only [MailState.afterSend] at hnext
    split at hnext
    · next email i hstage =>
      obtain ⟨-, hsent⟩ := Option.ite_none_right_eq_some.mp hnext
      obtain rfl := Option.some.inj hsent
      exact ⟨fun email' h' => hwithin.email email' (by rw [hstage]; exact h'),
        fun _ => hwithin.counted (by simp [hstage, DeliveryStage.attempt?]),
        fun _ => htimely d hd⟩
    · cases hnext
  | limits act =>
    obtain ⟨-, hmap⟩ := Option.ite_none_right_eq_some.mp hexec
    obtain ⟨limits, -, rfl⟩ := Option.map_eq_some_iff.mp hmap
    exact ⟨h.run, h.queue, h.deliveries, h.within⟩

/-! ### Runs -/

theorem MailInv.initial : MailInv env mail init (.initial (start init now)) where
  run := ⟨now, .refl⟩
  queue _ hjob := absurd hjob List.not_mem_nil
  deliveries _ hd := absurd hd List.not_mem_nil
  within _ hd := absurd hd List.not_mem_nil

theorem MailInv.linksOpen (h : MailInv env mail init s) : LinksOpen env mail init s where
  sent d hd email hsent := by
    obtain ⟨attempt, hstage⟩ : ∃ attempt, d.stage = .sent email attempt := by
      cases hstage : d.stage with
      | sent email' attempt =>
        rw [hstage] at hsent
        exact ⟨attempt, by rw [Option.some.inj hsent]⟩
      | _ => simp [hstage, DeliveryStage.sent?] at hsent
    have hwithin := h.within d hd
    have hsound := h.deliveries d hd
    obtain ⟨hhash, hexpiry⟩ := hsound.link h.run
      (hwithin.counted (by simp [hstage, DeliveryStage.attempt?]))
    have htime := hwithin.sent (by simp [hstage, DeliveryStage.sent?])
    exact ⟨hwithin.email email (by simp [hstage, DeliveryStage.email?]), d.invitation,
      hsound.id_eq ▸ Table.find?_of_mem hsound.invitation, hhash, hsound.pending, hexpiry htime⟩
  superseded d hd hsuperseded := by
    by_contra hcounted
    have hsound := h.deliveries d hd
    obtain ⟨hhash, -⟩ := hsound.link h.run ((h.within d hd).counted hcounted)
    exact hsuperseded d.invitation (hsound.id_eq ▸ Table.find?_of_mem hsound.invitation) hhash

/-- Where every job is delivered before the next resend and before its expiry, whatever else
happens, every email opens its invitation and no superseded job costs anything. -/
theorem linksOpen_of_run {acts : List MailAction}
    (htimely : Along (MailState.exec env mail) (Timely init) (.initial (start init now)) acts)
    (hrun : run (MailState.exec env mail) (.initial (start init now)) acts = some s) :
    LinksOpen env mail init s :=
  (run_invariant (fun _ _ _ ht h hexec => h.exec ht hexec) MailInv.initial htimely hrun).linksOpen

namespace Sample

/-- Keys and links that are legible. -/
def mailEnv : MailEnv where
  webBaseUrl := "https://app"
  encodeURIComponent token := token
  canonicalEmailDestination email := email
  digest destination := destination

/-- Ann sends Bob's invitation again, as process `p` with this token, and the job is queued. -/
def resend (p : ℕ) (token : String) : List MailAction :=
  .system (.spawn p (.resendInvitation "ann" "acme" "bob-i" true)) ::
    (List.replicate 4 (.system (.step p)) ++ .system (.draw p token) ::
      (List.replicate 6 (.system (.step p)) ++ [.enqueue 0 "bob-i" token]))

/-- The first delivery, of the first job. -/
def deliver : List MailAction :=
  [.begin 0, .readWorkspace 0, .readInviter 0 "Ann Ames", .reserve 0, .send 0, .limits (.succeed 0)]

end Sample

theorem linksOpen_deliver : ∃ s, run (MailState.exec Sample.env Sample.mailEnv)
      (.initial (start (Sample.invited "ann" "bob") 5000)) (Sample.resend 1 "first" ++
        Sample.deliver) = some s ∧ (∃ d ∈ s.deliveries, d.stage.sent?.isSome) ∧
        LinksOpen Sample.env Sample.mailEnv (Sample.invited "ann" "bob") s := by
  obtain ⟨s, hrun, hsent⟩ : ∃ s ∈ run (MailState.exec Sample.env Sample.mailEnv)
      (.initial (start (Sample.invited "ann" "bob") 5000)) (Sample.resend 1 "first" ++
        Sample.deliver), ∃ d ∈ s.deliveries, d.stage.sent?.isSome := by decide +kernel
  exact ⟨s, hrun, hsent, linksOpen_of_run (by decide +kernel) hrun⟩

/-- A job that is delivered after a second resend sends the link that the resend has killed, and
uses up one of the five emails of the address. -/
theorem not_linksOpen_resendTwice : ¬ ∀ (env : Env) (mail : MailEnv) (init : Database) (now : ℕ)
    (acts : List MailAction) (s : MailState),
      run (MailState.exec env mail) (.initial (start init now)) acts = some s →
        LinksOpen env mail init s := by
  intro hclaim
  obtain ⟨s, hrun, d, hd, ⟨email, hsent, -⟩, hsuperseded⟩ :
      ∃ s ∈ run (MailState.exec Sample.env Sample.mailEnv)
        (.initial (start (Sample.invited "ann" "bob") 5000)) (Sample.resend 1 "first" ++
          Sample.resend 2 "second" ++ Sample.deliver), ∃ d ∈ s.deliveries,
            (∃ email ∈ d.stage.sent?, email.acceptUrl = acceptUrl Sample.mailEnv "first") ∧
              d.Superseded Sample.env (Sample.invited "ann" "bob") := by decide +kernel
  have huncounted := (hclaim _ _ _ _ _ s hrun).superseded d hd hsuperseded
  cases hstage : d.stage with
  | sent => simp [hstage, DeliveryStage.attempt?] at huncounted
  | _ => simp [hstage, DeliveryStage.sent?] at hsent

/-- A job that waits for a day sends a link that has lapsed. -/
example : ∃ s ∈ run (MailState.exec Sample.env Sample.mailEnv)
    (.initial (start (Sample.invited "ann" "bob") 5000)) (Sample.resend 1 "first" ++
      .system (.tick dayMs) :: Sample.deliver), ∃ d ∈ s.deliveries, d.stage.sent?.isSome ∧
        ¬ d.Opens Sample.env (Sample.invited "ann" "bob") "first" := by decide +kernel

end NestApi
