import NestApi.Grants.Guarantee

/-!
# Judging the system of grants

Every program is within the guarantee, whatever the others do between its steps. What an
operation read under the lock of a workspace is still so when it commits, so it names
everybody whose rows it writes.
-/

namespace NestApi

open Txn Program PermissionLoader AuthorityChanges

variable {β : Type} {a : Agent GrantsRequest} {c : Ctx Store RowLock} {w w' : GrantsWorld}
  {Q : Except Failure β → Ctx Store RowLock → GrantsWorld → Prop} {userId : Uuid} {n : ℕ}

/-! ### Commands -/

theorem wp_statement {f : Store → Store} {ev : GrantsEvent} {k : Unit → Task β}
    (h : ∀ w', Interf grantsGuarantee a (fun _ => False) w w' →
      GrantsStep a (fun _ => False) w' ev (f w'.db) ∧
        wp grantsGuarantee a (k ()) Q Ctx.start (w'.push a ev (f w'.db))) :
    wp grantsGuarantee a (statement f ev >>= k) Q Ctx.start w := by
  intro w₁ hw₁ w₂ hw₂
  exact h w₂ (hw₁.trans hw₂)

/-- A command that writes takes effect, or Redis was not available. -/
theorem wp_redisCommand {f : Store → Store} {ev : GrantsEvent} {k : Unit → Task β}
    (hyes : ∀ w', Interf grantsGuarantee a (fun _ => False) w w' →
      GrantsStep a (fun _ => False) w' ev (f w'.db) ∧
        wp grantsGuarantee a (k ()) Q Ctx.start (w'.push a ev (f w'.db)))
    (hno : ∀ w', Interf grantsGuarantee a (fun _ => False) w w' → w'.db.redis.available = false →
      wp grantsGuarantee a (k ()) Q Ctx.start w') :
    wp grantsGuarantee a (redisCommand f ev >>= k) Q Ctx.start w := by
  unfold redisCommand
  rw [bind_assoc]
  refine wp_select fun w₁ hw₁ => wp_onlyIf (fun _ => ?_) fun hdown => ?_
  · exact wp_statement fun w₂ hw₂ => hyes w₂ (hw₁.trans hw₂)
  · have hfalse : w₁.db.redis.available = false := Bool.eq_false_iff.mpr hdown
    exact hno w₁ hw₁ hfalse

theorem wp_readEpoch {k : Option ℕ → Task β}
    (h : ∀ w', Interf grantsGuarantee a (fun _ => False) w w' →
      wp grantsGuarantee a (k (epochOf w'.db)) Q Ctx.start
        (w'.push a (.epochRead (epochOf w'.db)) w'.db)) :
    wp grantsGuarantee a (readEpoch >>= k) Q Ctx.start w :=
  wp_selectObserved fun w₁ hw₁ => ⟨.epochRead, h w₁ hw₁⟩

/-- What a lookup finds was under the key. -/
theorem wp_readCachedGrants {cacheKey : String} {k : Option LoadedGrants → Task β}
    (h : ∀ w' found, Interf grantsGuarantee a (fun _ => False) w w' →
      (∀ grants ∈ found, w'.db.redis.grants cacheKey = some grants) →
        wp grantsGuarantee a (k found) Q Ctx.start w') :
    wp grantsGuarantee a (readCachedGrants cacheKey >>= k) Q Ctx.start w := by
  refine wp_select fun w₁ hw₁ => h w₁ _ hw₁ ?_
  intro grants hfound
  change (if w₁.db.redis.available = true then w₁.db.redis.grants cacheKey else none) =
    some grants at hfound
  split at hfound
  · exact hfound
  · cases hfound

/-! ### Loading -/

/-- The newest entry stays in every later history. -/
theorem entry_of_push {ev : GrantsEvent} {s : Store}
    (h : Interf grantsGuarantee a (fun _ => False) (w.push a ev s) w') :
    (⟨a, ev, s⟩ :: w.log) <:+ w'.log :=
  h.log_suffix

/-- A load that reads the database, and then answers. -/
theorem wp_loadGrantsFromDatabase {epoch : Option ℕ} {s : Store} {l : GrantsLog}
    {k : LoadedGrants → Task β} (hreq : a.req = .loadGrants userId)
    (hstart : (⟨a, .epochRead epoch, s⟩ :: l) <:+ w.log)
    (h : ∀ w' grants, w.Extends w' → Founded a w' userId grants →
      (∃ s l, (⟨a, .grantsRead userId grants, s⟩ :: l) <:+ w'.log ∧
        w.db.redis.currentEpoch ≤ s.redis.currentEpoch) →
          wp grantsGuarantee a (k grants) Q Ctx.start w') :
    wp grantsGuarantee a (PermissionLoader.loadGrantsFromDatabase userId >>= k) Q Ctx.start w := by
  refine wp_selectObserved fun w₁ hw₁ => ⟨.grantsRead userId hreq, ?_⟩
  have hread : (⟨a, .grantsRead userId (w₁.db.loadGrants userId), w₁.db⟩ :: w₁.log) <:+
      (w₁.push a (.grantsRead userId (w₁.db.loadGrants userId)) w₁.db).log :=
    List.suffix_refl _
  have hold := hstart.trans hw₁.log_suffix
  have hlength : l.length < w₁.log.length := by
    have hle := hold.length_le
    simp only [List.length_cons] at hle
    omega
  refine h _ _ (hw₁.extends.trans (World.extends_push _ _ _ _)) ?_ ?_
  · exact ⟨epoch, s, l, hold.trans (List.suffix_cons _ _), .inl ⟨_, _, hread, hlength⟩⟩
  · exact ⟨_, _, hread, hw₁.currentEpoch_le⟩

theorem Founded.mono {grants : LoadedGrants} (h : Founded a w userId grants)
    (hw : w.Extends w') : Founded a w' userId grants := by
  obtain ⟨epoch, s, l, hstart, hanswer⟩ := h
  refine ⟨epoch, s, l, hstart.trans hw.log, ?_⟩
  rcases hanswer with ⟨s', k, hread, hlength⟩ | ⟨n, s', hepoch, hsince, hfound⟩
  · exact .inl ⟨s', k, hread.trans hw.log, hlength⟩
  · exact .inr ⟨n, s', hepoch, hw.since hsince, hfound⟩

/-- The end of a load. -/
theorem wp_answer {grants : LoadedGrants} (hreq : a.req = .loadGrants userId)
    (h : Founded a w userId grants) :
    wp grantsGuarantee a (emit (.loadAnswered userId grants) : Task Unit) (fun _ _ _ => True)
      Ctx.start w := by
  intro w₁ hw₁
  exact ⟨.loadAnswered userId grants hreq (h.mono hw₁.extends), trivial⟩

theorem loadGrants_judged (hreq : a.req = .loadGrants userId) :
    wp grantsGuarantee a (grantsBody (.loadGrants userId)) (fun _ _ _ => True) Ctx.start w := by
  simp only [grantsBody, loadGrants, bind_assoc]
  refine wp_readEpoch fun w₁ hw₁ => ?_
  have hstart : (⟨a, .epochRead (epochOf w₁.db), w₁.db⟩ :: w₁.log) <:+
      (w₁.push a (.epochRead (epochOf w₁.db)) w₁.db).log := List.suffix_refl _
  cases hepoch : epochOf w₁.db with
  | none =>
    rw [hepoch] at hstart
    exact wp_loadGrantsFromDatabase hreq hstart fun w₂ grants _ hanswer _ => wp_answer hreq hanswer
  | some epoch =>
    rw [hepoch] at hstart
    have hcurrent : epoch = w₁.db.redis.currentEpoch := by
      unfold epochOf at hepoch
      split at hepoch
      · exact (Option.some_inj.mp hepoch).symm
      · cases hepoch
    simp only [bind_assoc]
    refine wp_readCachedGrants fun w₂ found hw₂ hfound => ?_
    cases found with
    | some cached =>
      -- a hit: what the key held after the epoch was read
      have hold := entry_of_push hw₂
      have hsince : w₂.Since (w₁.log.length + 1) w₂.db :=
        w₂.since_db (by simpa using hold.length_le)
      have hcached := hfound cached rfl
      exact wp_answer hreq ⟨some epoch, w₁.db, w₁.log, hold, .inr ⟨epoch, _, rfl, hsince, hcached⟩⟩
    | none =>
      have hstart₂ := hstart.trans hw₂.log_suffix
      simp only [bind_assoc]
      refine wp_loadGrantsFromDatabase hreq hstart₂ fun w₃ grants _ hanswer hread => ?_
      obtain ⟨s, l, hl, hle⟩ := hread
      refine wp_redisCommand (fun w₄ hw₄ => ⟨?_, ?_⟩) fun w₄ hw₄ _ => ?_
      · refine .grantsCached userId epoch grants hreq ⟨s, l, hl.trans hw₄.log_suffix, ?_⟩
        exact hcurrent ▸ hw₂.currentEpoch_le.trans hle
      · exact wp_answer hreq ((hanswer.mono hw₄.extends).mono (World.extends_push _ _ _ _))
      · exact wp_answer hreq (hanswer.mono hw₄.extends)

/-! ### Invalidating -/

/-- A call of `invalidateUser` that starts after the first `n` entries. -/
theorem invalidateUser_judged (hn : n ≤ w.log.length) :
    wp grantsGuarantee a (invalidateUser userId) (fun _ c w' => c = Ctx.start ∧ w.Extends w' ∧
      (Invalidated a userId n w'.log ∨ Outage w')) Ctx.start w := by
  unfold invalidateUser
  refine wp_readEpoch fun w₁ hw₁ => ?_
  have hpush := World.extends_push w₁ a (.epochRead (epochOf w₁.db)) w₁.db
  have hbefore := hw₁.extends.trans hpush
  have hread : (⟨a, .epochRead (epochOf w₁.db), w₁.db⟩ :: w₁.log) <:+
      (w₁.push a (.epochRead (epochOf w₁.db)) w₁.db).log := List.suffix_refl _
  cases hepoch : epochOf w₁.db with
  | none =>
    have hdown : w₁.db.redis.available = false := by
      unfold epochOf at hepoch
      split at hepoch
      · cases hepoch
      · simp_all
    rw [hepoch] at hbefore
    exact ⟨rfl, hbefore, .inr ⟨w₁.db, (World.since_push).mpr (.inr ⟨Nat.zero_le _, rfl⟩), hdown⟩⟩
  | some epoch =>
    rw [hepoch] at hbefore hread
    change wp grantsGuarantee a (redisCommand (fun s => s.deleteGrants (buildCacheKey epoch userId))
      (.keyDeleted (buildCacheKey epoch userId))) _ _ _
    rw [← bind_pure (redisCommand _ _)]
    refine wp_redisCommand (fun w₂ hw₂ => ⟨.keyDeleted _, ?_⟩) fun w₂ hw₂ hdown => ?_
    · refine ⟨rfl, hbefore.trans (hw₂.extends.trans (World.extends_push _ _ _ _)), .inl ?_⟩
      have hn₁ : n ≤ w₁.log.length := hn.trans hw₁.log_suffix.length_le
      exact ⟨_, w₂.log, List.suffix_refl _, rfl, _, w₁.log, epoch, hread.trans hw₂.log_suffix,
        hn₁, rfl, rfl, rfl⟩
    · exact ⟨rfl, hbefore.trans hw₂.extends, .inr ⟨w₂.db, w₂.since_db (Nat.zero_le _), hdown⟩⟩

/-- What follows the commit of an operation: everybody named is invalidated, then it returns. -/
theorem invalidateGrantsFor_judged {e : Entry Store GrantsEvent GrantsRequest} {l : GrantsLog}
    {users named : List Uuid} (he : (e :: l) <:+ w.log) (hagent : e.agent = a)
    (hnamed : e.event.users? = some named) (hall : ∀ u ∈ named, u ∈ users) :
    wp grantsGuarantee a (invalidateGrantsFor users) (fun _ _ _ => True) Ctx.start w := by
  unfold invalidateGrantsFor
  refine wp_forEach (J := fun done w' => w.Extends w' ∧
    ∀ u ∈ done, Invalidated a u (l.length + 1) w'.log ∨ Outage w') (fun _ _ _ => trivial)
      ⟨.refl w, by simp⟩ ?_ ?_
  · rintro done u w₁ ⟨hext, hdone⟩
    have hn : l.length + 1 ≤ w₁.log.length := by
      have hle := (he.trans hext.log).length_le
      simpa using hle
    refine wp_mono ?_ (invalidateUser_judged hn)
    rintro r c w₂ ⟨rfl, hext₂, hu⟩
    refine .inr ⟨rfl, hext.trans hext₂, fun v hv => ?_⟩
    rcases List.mem_append.mp hv with hv | hv
    · rcases hdone v hv with hinv | hout
      · exact .inl (hinv.mono hext₂.log)
      · exact .inr (hout.mono hext₂)
    · obtain rfl : v = u := by simpa using hv
      exact hu
  · rintro w₁ ⟨hext, hdone⟩ w₂ hw₂
    refine ⟨.operationEnded ?_, trivial⟩
    refine ⟨e, l, named, he.trans (hext.trans hw₂.extends).log, hagent, hnamed, fun u hu => ?_⟩
    rcases hdone u (hall u hu) with hinv | hout
    · exact .inl (hinv.mono hw₂.log_suffix)
    · exact .inr (hout.mono hw₂.extends)

/-- The transaction of an operation answers everybody whose rows it writes. -/
def Names (a : Agent GrantsRequest) :
    Except Failure (List Uuid) → Ctx Store RowLock → GrantsWorld → Prop
  | .ok users, c, w => ∀ w', Interf grantsGuarantee a c.held w w' →
      GrantsStep a c.held w' (.authorityChanged users) (c.pend w'.db)
  | .error _, _, _ => True

theorem changeAuthority_judged {body : Task (List Uuid)}
    (h : wp grantsGuarantee a body (Names a) Ctx.start w) :
    wp grantsGuarantee a (changeAuthority body) (fun _ _ _ => True) Ctx.start w := by
  unfold changeAuthority
  refine wp_bind (wp_transaction (wp_mono ?_ h))
  rintro (e | users) c w₁ hnames
  · exact fun _ _ => trivial
  · intro w₂ hw₂
    refine ⟨hnames w₂ hw₂, ?_⟩
    exact invalidateGrantsFor_judged (List.suffix_refl _) rfl rfl fun u hu => by simpa using hu

/-! ### Operations -/

namespace AuthorityChanges

section Operations

variable (hreq : ¬ a.req.IsLoad)
include hreq

/-- The commit of an operation that wrote `f` and answers `users`. -/
theorem names_of {f : Database → Database} {users : List Uuid}
    (hpend : ∀ s, c.pend s = s.modifyDatabase f)
    (h : ∀ w', Interf grantsGuarantee a c.held w w' →
      (∀ u ∉ users, (f w'.db.database).authorityRows u = w'.db.database.authorityRows u) ∧
        ∀ workspaceId, c.held (.workspace workspaceId) ∨
          (f w'.db.database).roster workspaceId = w'.db.database.roster workspaceId) :
    Names a (.ok users) c w := by
  intro w₁ hw₁
  obtain ⟨hothers, hrosters⟩ := h w₁ hw₁
  rw [hpend]
  exact .authorityChanged users (f w₁.db.database) hreq hothers hrosters

theorem assign_judged {role : SeededRoleName} :
    wp grantsGuarantee a (assign userId role) (Names a) Ctx.start w := by
  refine wp_modify fun w₁ hw₁ => wp_pure (names_of hreq
    (f := fun db => db.insertUserRole ⟨userId, role⟩) (fun _ => rfl) fun w₂ hw₂ =>
      ⟨fun u hu => ?_, fun _ => ?_⟩)
  · have hne : userId ≠ u := fun heq => hu (by simp [heq])
    exact authorityRows_insertUserRole hne
  · exact .inr rfl

theorem revoke_judged {role : SeededRoleName} :
    wp grantsGuarantee a (revoke userId role) (Names a) Ctx.start w := by
  refine wp_modify fun w₁ hw₁ => wp_pure (names_of hreq
    (f := fun db => db.deleteUserRole ⟨userId, role⟩) (fun _ => rfl) fun w₂ hw₂ =>
      ⟨fun u hu => ?_, fun _ => ?_⟩)
  · have hne : userId ≠ u := fun heq => hu (by simp [heq])
    exact authorityRows_deleteUserRole hne
  · exact .inr rfl

theorem endAccount_judged {data : UserUpdateInput} :
    wp grantsGuarantee a (endAccount userId data) (Names a) Ctx.start w := by
  refine wp_lockRow fun w₁ hw₁ => wp_modify fun w₂ hw₂ => wp_pure (names_of hreq
    (f := fun db => db.updateUser userId data.rewrite) (fun _ => rfl) fun w₃ hw₃ =>
      ⟨fun u hu => ?_, fun _ => ?_⟩)
  · have hne : userId ≠ u := fun heq => hu (by simp [heq])
    exact authorityRows_updateUser hne
  · exact .inr rfl

/-- One membership that was read under the lock of its workspace is rewritten. -/
theorem names_rewritten {m : WorkspaceMembership} {f : Txn.Rewrite WorkspaceMembership.id}
    (hpend : ∀ s, c.pend s = s.modifyDatabase fun db => db.updateMemberships [m.id] f)
    (hf : KeepsMember f) (hlock : c.held (.workspace m.workspaceId))
    (hm : m ∈ w.db.database.workspaceMemberships) : Names a (.ok [m.userId]) c w := by
  refine names_of hreq hpend fun w₁ hw₁ => ?_
  have hm₁ := (hw₁.mem_memberships hlock).mpr hm
  refine ⟨fun u hu => ?_, fun workspaceId => ?_⟩
  · have hne : m.userId ≠ u := fun heq => hu (by simp [heq])
    exact authorityRows_updateMembership hm₁ hf hne
  · by_cases hworkspace : m.workspaceId = workspaceId
    · exact .inl (hworkspace ▸ hlock)
    · refine .inr (roster_updateMemberships hf fun r hr hid => ?_)
      have hsame : r = m := Table.eq_of_key hr hm₁ (by simpa using hid)
      exact hsame ▸ hworkspace

theorem join_judged {m : WorkspaceMembership} {actorId : Uuid} :
    wp grantsGuarantee a (join m actorId) (Names a) Ctx.start w := by
  refine wp_lockRow fun w₁ hw₁ => wp_lockRow fun w₂ hw₂ => wp_select fun w₃ hw₃ => ?_
  simp only [Ctx.start, id_eq]
  cases hfound : w₃.db.database.membershipOf? m.workspaceId m.userId with
  | some existing =>
    obtain ⟨hmem, hworkspace, huser⟩ := Database.of_membershipOf? hfound
    refine wp_modify fun w₄ hw₄ => wp_pure ?_
    have hlock : (fun l => l = RowLock.workspace m.workspaceId ∨ l = .user m.userId ∨ False)
        (.workspace existing.workspaceId) := .inl (by rw [hworkspace])
    have hnamed : [m.userId] = [existing.userId] := by rw [huser]
    rw [hnamed]
    exact names_rewritten hreq (fun _ => rfl) keepsMember_rejoined hlock
      ((hw₄.mem_memberships hlock).mpr hmem)
  | none =>
    refine wp_modify fun w₄ hw₄ => wp_pure (names_of hreq
      (f := fun db => db.insertMembership m) (fun _ => rfl) fun w₅ hw₅ =>
        ⟨fun u hu => ?_, fun workspaceId => ?_⟩)
    · have hne : m.userId ≠ u := fun heq => hu (by simp [heq])
      exact authorityRows_insertMembership hne
    · by_cases hworkspace : m.workspaceId = workspaceId
      · exact .inl (.inl (by rw [hworkspace]))
      · exact .inr (roster_insertMembership hworkspace)

omit hreq in
/-- The membership that is found under the lock of its workspace. -/
theorem wp_findInWorkspace {workspaceId membershipId : Uuid} {k : WorkspaceMembership → Task β}
    (herr : ∀ e c w, Q (.error e) c w)
    (h : ∀ (w' : GrantsWorld) (m : WorkspaceMembership),
      m ∈ w'.db.database.workspaceMemberships → m.workspaceId = workspaceId →
        wp grantsGuarantee a (k m) Q
          ⟨fun l => l = .workspace workspaceId ∨ False, id⟩ w') :
    wp grantsGuarantee a (AuthorityChanges.findInWorkspace workspaceId membershipId >>= k) Q
      Ctx.start w := by
  unfold AuthorityChanges.findInWorkspace
  simp only [bind_assoc]
  refine wp_lockRow fun w₁ hw₁ => wp_select fun w₂ hw₂ => wp_orThrow (fun m hm => ?_)
    fun _ => herr _ _ _
  obtain ⟨hfind, hworkspace⟩ := Option.filter_eq_some_iff.mp hm
  obtain ⟨hmem, -⟩ := Table.find?_eq_some.mp hfind
  exact h w₂ m hmem (by simpa using hworkspace)

theorem rewriteMembership_judged {workspaceId membershipId : Uuid}
    {f : Txn.Rewrite WorkspaceMembership.id} (hf : KeepsMember f) :
    wp grantsGuarantee a (rewriteMembership workspaceId membershipId f) (Names a) Ctx.start w := by
  refine wp_findInWorkspace (fun _ _ _ => trivial) fun w₁ m hm hworkspace =>
    wp_modify fun w₂ hw₂ => wp_pure ?_
  subst hworkspace
  exact names_rewritten hreq (fun _ => rfl) hf (.inl rfl) ((hw₂.mem_memberships (.inl rfl)).mpr hm)

theorem transferOwnership_judged {workspaceId membershipId actorId : Uuid} :
    wp grantsGuarantee a (AuthorityChanges.transferOwnership workspaceId membershipId actorId)
      (Names a) Ctx.start w := by
  refine wp_findInWorkspace (fun _ _ _ => trivial) fun w₁ target htarget hworkspace =>
    wp_select fun w₂ hw₂ => wp_modify fun w₃ hw₃ => wp_modify fun w₄ hw₄ => wp_pure ?_
  subst hworkspace
  simp only [id_eq]
  generalize houtgoing : (w₂.db.database.workspaceMemberships.filter fun m =>
    m.workspaceId = target.workspaceId && decide m.IsActiveOwner && m.id ≠ target.id) = outgoing
  refine names_of hreq (f := fun db => (db.updateMemberships (outgoing.map (·.id))
    (WorkspaceMembership.withRole .workspaceAdmin actorId)).updateMemberships [target.id]
      (WorkspaceMembership.withRole .workspaceOwner actorId)) (fun _ => rfl) fun w₅ hw₅ => ?_
  have hw₂₅ := (hw₃.trans hw₄).trans hw₅
  have htarget₅ := ((hw₂.trans hw₂₅).mem_memberships (m := target) (.inl rfl)).mpr htarget
  -- the rows that are demoted are the rows that were read
  have hdemoted : ∀ m ∈ w₅.db.database.workspaceMemberships, m.id ∈ outgoing.map (·.id) →
      m ∈ outgoing ∧ m.workspaceId = target.workspaceId := by
    intro m hm hid
    obtain ⟨o, ho, hoid⟩ := List.mem_map.mp hid
    have hrow : o ∈ w₂.db.database.workspaceMemberships ∧
        o.workspaceId = target.workspaceId := by
      rw [← houtgoing] at ho
      obtain ⟨hmem, hcond⟩ := Table.mem_filter.mp ho
      simp only [Bool.and_eq_true, decide_eq_true_eq] at hcond
      exact ⟨hmem, hcond.1.1⟩
    have ho₅ := (hw₂₅.mem_memberships (m := o) (.inl (by rw [hrow.2]))).mpr hrow.1
    obtain rfl : m = o := Table.eq_of_key hm ho₅ hoid.symm
    exact ⟨ho, hrow.2⟩
  have hpromoted : ∀ m ∈ (w₅.db.database.updateMemberships (outgoing.map (·.id))
      (WorkspaceMembership.withRole .workspaceAdmin actorId)).workspaceMemberships,
        m.id ∈ [target.id] → m.userId = target.userId ∧ m.workspaceId = target.workspaceId := by
    intro m hm hid
    have hid : m.id = target.id := by simpa using hid
    rcases Table.of_mem_update hm with ⟨hold, -⟩ | ⟨r, hr, -, rfl⟩
    · obtain rfl : m = target := Table.eq_of_key hold htarget₅ hid
      exact ⟨rfl, rfl⟩
    · obtain rfl : r = target := Table.eq_of_key hr htarget₅ hid
      exact ⟨rfl, rfl⟩
  refine ⟨fun u hu => ?_, fun workspaceId => ?_⟩
  · simp only [List.mem_cons, List.mem_map, not_or, not_exists, not_and] at hu
    obtain ⟨hutarget, -, huoutgoing⟩ := hu
    rw [authorityRows_updateMemberships keepsMember_withRole fun m hm hid =>
        (hpromoted m hm hid).1 ▸ Ne.symm hutarget,
      authorityRows_updateMemberships keepsMember_withRole fun m hm hid =>
        huoutgoing m (hdemoted m hm hid).1]
  · by_cases hworkspace : target.workspaceId = workspaceId
    · exact .inl (.inl (by rw [hworkspace]))
    · refine .inr ?_
      rw [roster_updateMemberships keepsMember_withRole fun m hm hid =>
          (hpromoted m hm hid).2 ▸ hworkspace,
        roster_updateMemberships keepsMember_withRole fun m hm hid =>
          (hdemoted m hm hid).2 ▸ hworkspace]

theorem createWorkspace_judged {ws : Workspace} {founder : WorkspaceMembership} :
    wp grantsGuarantee a (AuthorityChanges.createWorkspace ws founder) (Names a) Ctx.start w := by
  refine wp_lockRow fun w₁ hw₁ => wp_lockRow fun w₂ hw₂ => wp_select fun w₃ hw₃ =>
    wp_ensure (fun hnone => wp_modify fun w₄ hw₄ => wp_modify fun w₅ hw₅ => wp_pure ?_)
      fun _ => trivial
  refine names_of hreq (f := fun db => (db.insertWorkspace ws).insertMembership
    { founder with workspaceId := ws.id }) (fun _ => rfl) fun w₆ hw₆ =>
      ⟨fun u hu => ?_, fun workspaceId => ?_⟩
  · have hne : founder.userId ≠ u := fun heq => hu (by simp [heq])
    refine (authorityRows_insertMembership (by exact hne)).trans (authorityRows_insertWorkspace ?_)
    -- nobody was in the workspace when the id was found unused
    intro m hm hid _
    have hlock : (fun l => l = RowLock.workspace ws.id ∨ l = .user founder.userId ∨ False)
        (.workspace m.workspaceId) := .inl (by rw [hid])
    have hm₃ := (((hw₄.trans hw₅).trans hw₆).mem_memberships hlock).mp hm
    have hmember : m.userId ∈ rosterOf [ws.id] w₃.db := by
      refine List.mem_map_of_mem (Table.mem_filter.mpr ⟨hm₃, ?_⟩)
      simp [hid]
    have hempty : rosterOf [ws.id] w₃.db = [] := hnone
    simp [hempty] at hmember
  · by_cases hworkspace : ws.id = workspaceId
    · exact .inl (.inl (by rw [hworkspace]))
    · exact .inr (roster_insertMembership hworkspace)

theorem gdprErase_judged {data : UserUpdateInput} {closed : List Uuid} {now : ℕ} :
    wp grantsGuarantee a (AuthorityChanges.gdprErase userId data closed now) (Names a) Ctx.start
      w := by
  refine wp_lockRow fun w₁ hw₁ => wp_lockRows fun w₂ hw₂ => wp_select fun w₃ hw₃ =>
    wp_modify fun w₄ hw₄ => wp_modify fun w₅ hw₅ => wp_pure ?_
  refine names_of hreq (f := fun db => (db.updateWorkspaces closed
    (Workspace.deleted now userId)).updateUser userId data.rewrite) (fun _ => rfl) fun w₆ hw₆ =>
      ⟨fun u hu => ?_, fun workspaceId => .inr rfl⟩
  simp only [List.mem_cons, not_or] at hu
  obtain ⟨huser, hroster⟩ := hu
  rw [authorityRows_updateUser (Ne.symm huser), authorityRows_updateWorkspaces]
  rintro m hm hid rfl
  have hlock : (fun l => l ∈ (sortedUnique closed).map RowLock.workspace ∨
      l = .user userId ∨ False) (.workspace m.workspaceId) :=
    .inl (List.mem_map_of_mem (mem_sortedUnique.mpr hid))
  have hm₃ := (((hw₄.trans hw₅).trans hw₆).mem_memberships hlock).mp hm
  refine hroster (List.mem_map_of_mem (Table.mem_filter.mpr ⟨hm₃, ?_⟩))
  simp [hid]

theorem removeWorkspace_judged {workspaceId actorId : Uuid} {now : ℕ} :
    wp grantsGuarantee a (AuthorityChanges.removeWorkspace workspaceId actorId now)
      (fun _ _ _ => True) Ctx.start w := by
  refine wp_selectObserved fun w₁ hw₁ => ⟨.rosterRead workspaceId hreq, ?_⟩
  refine wp_bind (wp_transaction (wp_lockRow fun w₂ hw₂ => ?_))
  rw [← bind_pure (write _)]
  refine wp_modify fun w₃ hw₃ => wp_pure fun w₄ hw₄ => ⟨?_, ?_⟩
  · have hread := ((hw₂.log_suffix.trans hw₃.log_suffix).trans hw₄.log_suffix)
    refine .workspaceRemoved workspaceId _
      (w₄.db.database.updateWorkspaces [workspaceId] (Workspace.deleted now actorId)) hreq
        ⟨_, _, hread⟩ (fun u hu => authorityRows_updateWorkspaces fun m hm hid => ?_) rfl
    exact hu m hm (by simpa using hid)
  · exact invalidateGrantsFor_judged (List.suffix_refl _) rfl rfl fun u hu => hu

end Operations

end AuthorityChanges

/-! ### The catalog sync -/

section Sync

variable (hreq : ¬ a.req.IsLoad)
include hreq

/-- A statement of the sync touches neither the database of accounts nor Redis. -/
theorem wp_syncStatement {f : Store → Store} {k : Unit → Task β}
    (hdatabase : ∀ s, (f s).database = s.database) (hredis : ∀ s, (f s).redis = s.redis)
    (h : ∀ w', wp grantsGuarantee a (k ()) Q Ctx.start w') :
    wp grantsGuarantee a (statement f .catalogSynced >>= k) Q Ctx.start w :=
  wp_statement fun _ _ => ⟨.catalogSynced _ hreq (hdatabase _) (hredis _), h _⟩

/-- A round of a loop of the sync that is one statement. -/
theorem syncRound {f : Store → Store} (hdatabase : ∀ s, (f s).database = s.database)
    (hredis : ∀ s, (f s).redis = s.redis) :
    wp grantsGuarantee a (statement f .catalogSynced) (fun r c _ =>
      (∃ e, r = .error e) ∨ c = Ctx.start ∧ True) Ctx.start w := by
  rw [← bind_pure (statement _ _)]
  exact wp_syncStatement hreq hdatabase hredis fun w₁ => wp_pure (.inr ⟨rfl, trivial⟩)

theorem seedPermissions_judged {k : Unit → Task β} (herr : ∀ e c w, Q (.error e) c w)
    (h : ∀ w', wp grantsGuarantee a (k ()) Q Ctx.start w') :
    wp grantsGuarantee a (RbacSeeder.seedPermissions >>= k) Q Ctx.start w := by
  unfold RbacSeeder.seedPermissions
  rw [bind_assoc]
  refine wp_forEach (J := fun _ _ => True) herr trivial (fun _ _ w₁ _ =>
    syncRound hreq (fun _ => rfl) fun _ => rfl) fun w₁ _ => ?_
  exact wp_syncStatement hreq (fun _ => rfl) (fun _ => rfl) h

theorem seedRole_judged {role : SeededRoleName} :
    wp grantsGuarantee a (RbacSeeder.seedRole role) (fun r c _ =>
      (∃ e, r = .error e) ∨ c = Ctx.start ∧ True) Ctx.start w := by
  refine wp_select fun w₁ _ => wp_ensure (fun _ => ?_) fun _ => .inl ⟨_, rfl⟩
  refine wp_syncStatement hreq (fun _ => rfl) (fun _ => rfl) fun w₂ => ?_
  rw [← bind_pure (forEach _ _)]
  refine wp_forEach (J := fun _ _ => True) (fun e _ _ => .inl ⟨e, rfl⟩) trivial
    (fun _ _ w₃ _ => syncRound hreq (fun _ => rfl) fun _ => rfl) fun w₃ _ => ?_
  exact wp_pure (.inr ⟨rfl, trivial⟩)

theorem syncCatalog_judged :
    wp grantsGuarantee a (grantsBody .syncCatalog) (fun _ _ _ => True) Ctx.start w := by
  refine seedPermissions_judged hreq (fun _ _ _ => trivial) fun w₁ => ?_
  unfold RbacSeeder.seedRoles
  rw [← bind_pure (forEach _ _)]
  exact wp_forEach (J := fun _ _ => True) (fun _ _ _ => trivial) trivial
    (fun _ _ w₂ _ => seedRole_judged hreq) fun _ _ => wp_pure trivial

end Sync

/-! ### Every request -/

/-- The guarantee with no invariant beside it. -/
def grantsProtocol : Protocol Store RowLock GrantsEvent Uuid GrantsRequest where
  guar := grantsGuarantee
  Inv _ := True
  inv_move _ _ := trivial

theorem grantsBody_admitted (Allowed : GrantsRequest → Prop) :
    grantsProtocol.Admits grantsBody Allowed := by
  rintro ⟨p, req⟩ w - -
  have hreq : ∀ r : GrantsRequest, (∀ u, r ≠ .loadGrants u) → ¬ r.IsLoad := by
    rintro r hr ⟨u, hu⟩
    exact hr u hu
  cases req with
  | loadGrants userId => exact loadGrants_judged rfl
  | invalidateAllUsers =>
    change wp grantsGuarantee _ (redisCommand _ _) _ _ _
    rw [← bind_pure (redisCommand _ _)]
    exact wp_redisCommand (fun _ _ => ⟨.epochIncremented, trivial⟩) fun _ _ _ => trivial
  | assignPlatformRole userId role =>
    exact changeAuthority_judged (assign_judged (hreq _ (by simp)))
  | revokePlatformRole userId role =>
    exact changeAuthority_judged (revoke_judged (hreq _ (by simp)))
  | addMembership m actorId => exact changeAuthority_judged (join_judged (hreq _ (by simp)))
  | acceptInvitation m => exact changeAuthority_judged (join_judged (hreq _ (by simp)))
  | changeRole workspaceId membershipId actorId role =>
    exact changeAuthority_judged (rewriteMembership_judged (hreq _ (by simp)) keepsMember_withRole)
  | transition workspaceId membershipId actorId status endedAt =>
    exact changeAuthority_judged
      (rewriteMembership_judged (hreq _ (by simp)) keepsMember_withStatus)
  | transferOwnership workspaceId membershipId actorId =>
    exact changeAuthority_judged (transferOwnership_judged (hreq _ (by simp)))
  | createWorkspace ws founder =>
    exact changeAuthority_judged (createWorkspace_judged (hreq _ (by simp)))
  | removeWorkspace workspaceId actorId now => exact removeWorkspace_judged (hreq _ (by simp))
  | endAccount userId data => exact changeAuthority_judged (endAccount_judged (hreq _ (by simp)))
  | gdprErase userId data closed now =>
    exact changeAuthority_judged (gdprErase_judged (hreq _ (by simp)))
  | syncCatalog => exact syncCatalog_judged (hreq _ (by simp))
  | expireKey cacheKey =>
    change wp grantsGuarantee _ (statement _ _) _ _ _
    rw [← bind_pure (statement _ _)]
    exact wp_statement fun _ _ => ⟨.keyExpired cacheKey, trivial⟩
  | switchRedis available =>
    change wp grantsGuarantee _ (statement _ _) _ _ _
    rw [← bind_pure (statement _ _)]
    exact wp_statement fun _ _ => ⟨.redisSwitched available rfl, trivial⟩

end NestApi
