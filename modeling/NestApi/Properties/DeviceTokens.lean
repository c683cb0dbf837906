import NestApi.DeviceTokens.Service
import NestApi.Properties.AdministrativeRoutes
import NestApi.Txn.Automaton

/-!
# Whose device tokens a caller reaches

However requests fall between the statements of others: a caller sees, changes and removes only
tokens of its own, unless a platform permission lets it manage those of others, or somebody with
such a permission has given the token away after the request read it.
-/

namespace NestApi

open Authorization Txn DeviceTokensService

variable {accessibleBy : AccessibleBy DeviceToken} {s s' : TokensState} {as : List TokensAction}
  {caller : TokenCaller} {ability : Ability} {action : AuthorizationAction} {record : Record}
  {row : DeviceToken} {rows : List DeviceToken} {event : TokenEvent}
  {events earlier : List TokenEvent} {id : Uuid} {request : ℕ}

/-! ### Permissions -/

/-- A platform permission lets the caller do this with every device token. -/
def TokenCaller.Manages (caller : TokenCaller) (action : AuthorizationAction) : Prop :=
  ∃ p ∈ caller.grants.platformPermissions, p.scope = .string RoleScope.platform.value ∧
    p.ownership = .string PermissionOwnership.any.value ∧ p.covers action.value "DeviceToken"

/-- What the ability of a caller allows: everything with its own tokens, and what it manages. -/
theorem can_token_iff (h : caller.ability = .ok ability) :
    ability.can action.value "DeviceToken" record = true ↔
      record "userId" = .string caller.id ∨ caller.Manages action := by
  have howner : resolveOwnerKey "DeviceToken" = .ok "userId" := rfl
  have hcovered : manageOwnDeviceToken.toPermissionGrant.covers action.value "DeviceToken" := by
    simp [PermissionGrant.covers, covers, PermissionDefinition.toPermissionGrant,
      manageOwnDeviceToken, platform, AuthorizationAction.value, AuthorizationSubject.value]
  refine (allows_createForUser h).trans ?_
  constructor
  · rintro (⟨p, hp, hscope, hcovers, hrows⟩ | ⟨m, -, -, w, -, -, p, -, -, hcovers, key, hkey, -⟩)
    · rcases hrows with hany | ⟨-, key, hkey, hvalue⟩
      · rcases List.mem_append.mp hp with hintrinsic | hplatform
        · obtain ⟨q, hq, rfl⟩ := List.mem_map.mp hintrinsic
          have hq' : q.ownership = .any := by
            cases hown : q.ownership with
            | any => rfl
            | own => simp [PermissionDefinition.toPermissionGrant, hown,
                PermissionOwnership.value] at hany
          exact absurd hcovers (intrinsic_not_administers hq hq' rfl)
        · exact .inr ⟨p, hplatform, hscope, hany, hcovers⟩
      · rw [resolveOwnerKey_of_covers hcovers hkey, howner] at hkey
        obtain rfl := Except.ok.inj hkey
        exact .inl hvalue
    · have hnone : (resolveTenantKey "DeviceToken").toOption = none := by decide
      rw [resolveTenantKey_of_covers hcovers hkey] at hkey
      simp [hkey, Except.toOption] at hnone
  · rintro (hown | ⟨p, hp, hscope, hany, hcovers⟩)
    · refine .inl ⟨manageOwnDeviceToken.toPermissionGrant, ?_, rfl, hcovered, .inr ?_⟩
      · exact List.mem_append_left _ (List.mem_map_of_mem (by decide))
      · exact ⟨rfl, "userId", rfl, hown⟩
    · exact .inl ⟨p, List.mem_append_right _ hp, hscope, hcovers, .inl hany⟩

/-! ### Reads -/

theorem of_findById (haccess : AccessibleBy.Lawful DeviceToken.toRecord accessibleBy)
    (hability : caller.ability = .ok ability)
    (h : findById accessibleBy ability rows action id = .ok row) :
    row ∈ rows ∧ row.id = id ∧ (row.userId = caller.id ∨ caller.Manages action) := by
  have hcaller : (Where.field fun row : DeviceToken => some (decide (row.id = id))).HasNoEmptyOr :=
    by simp [Where.field, Where.HasNoEmptyOr]
  obtain ⟨hgranted, hdenied⟩ :=
    buildWhere_agrees_can haccess ability action .deviceToken _ hcaller
  cases htype : ability.canType action.value "DeviceToken" with
  | false =>
    rw [findById, buildRecordWhere, (hdenied htype).1] at h
    cases h
  | true =>
    obtain ⟨filter, hfilter, -, hselects⟩ := hgranted htype
    rw [findById, buildRecordWhere, hfilter] at h
    cases hfind : rows.find? fun row => filter.selects row with
    | none => simp [hfind] at h
    | some found =>
      simp only [hfind, Except.ok.injEq] at h
      subst h
      have hselected := List.find?_some hfind
      obtain ⟨hid, hcan⟩ := (hselects found).mp (of_decide_eq_true hselected)
      rw [Where.selects_field, Option.some_inj, decide_eq_true_eq] at hid
      have hallowed := (can_token_iff hability).mp hcan
      rw [DeviceToken.toRecord_userId, JsValue.string.injEq] at hallowed
      exact ⟨List.mem_of_find?_eq_some hfind, hid, hallowed⟩

theorem of_findPaginated (haccess : AccessibleBy.Lawful DeviceToken.toRecord accessibleBy)
    (hability : caller.ability = .ok ability) {order : DeviceToken → DeviceToken → Bool}
    {page perPage total : ℕ} {data : List DeviceToken}
    (h : DeviceTokensService.findPaginated accessibleBy ability rows order page perPage =
      .ok (data, total)) :
    ∀ row ∈ data, row.userId = caller.id ∨ caller.Manages .read := by
  obtain ⟨hgranted, hdenied⟩ := buildWhere_agrees_can haccess ability .read .deviceToken .empty
    (by simp [Where.empty, Where.HasNoEmptyOr])
  cases htype : ability.canType AuthorizationAction.read.value "DeviceToken" with
  | false =>
    rw [DeviceTokensService.findPaginated, (hdenied htype).1] at h
    cases h
  | true =>
    obtain ⟨filter, hfilter, -, hselects⟩ := hgranted htype
    rw [DeviceTokensService.findPaginated, hfilter] at h
    simp only [Except.ok.injEq, Prod.mk.injEq] at h
    obtain ⟨rfl, -⟩ := h
    intro row hrow
    have hsorted := List.mem_of_mem_drop (List.mem_of_mem_take hrow)
    have hselected := (List.mem_filter.mp (List.mem_mergeSort.mp hsorted)).2
    obtain ⟨-, hcan⟩ := (hselects row).mp (of_decide_eq_true hselected)
    have hallowed := (can_token_iff hability).mp hcan
    rwa [DeviceToken.toRecord_userId, JsValue.string.injEq] at hallowed

theorem of_assertCan {userId : Uuid} (hability : caller.ability = .ok ability)
    (h : DeviceTokensService.assertCan ability action (Record.of "userId" userId) = .ok ()) :
    userId = caller.id ∨ caller.Manages action := by
  unfold DeviceTokensService.assertCan at h
  split at h
  · next hcan =>
    have hallowed := (can_token_iff hability).mp hcan
    simpa [Record.of] using hallowed
  · cases h

/-! ### What happened -/

/-- Somebody who manages tokens has given this one to another user. -/
def GivenAway (events : List TokenEvent) (id : Uuid) : Prop :=
  ∃ caller before after, TokenEvent.updated caller before after ∈ events ∧
    caller.Manages .update ∧ before.id = id ∧ before.userId ≠ after.userId

theorem GivenAway.mono (h : GivenAway earlier id) (hsubset : earlier ⊆ events) :
    GivenAway events id := by
  obtain ⟨caller, before, after, hmem, hrest⟩ := h
  exact ⟨caller, before, after, hsubset hmem, hrest⟩

/-- What a caller may do, after what has happened. -/
def TokenEvent.Justified (earlier : List TokenEvent) : TokenEvent → Prop
  | .created caller row => row.userId = caller.id ∨ caller.Manages .create
  | .answered caller row => row.userId = caller.id ∨ caller.Manages .read
  | .updated caller before after =>
    (before.userId = caller.id ∨ caller.Manages .update ∨ GivenAway earlier before.id) ∧
      (after.userId = before.userId ∨ after.userId = caller.id ∨ caller.Manages .update)
  | .removed caller row =>
    row.userId = caller.id ∨ caller.Manages .delete ∨ GivenAway earlier row.id

def AllJustified : List TokenEvent → Prop
  | [] => True
  | event :: earlier => TokenEvent.Justified earlier event ∧ AllJustified earlier

theorem AllJustified.split {later : List TokenEvent}
    (h : AllJustified (later ++ event :: earlier)) : TokenEvent.Justified earlier event := by
  induction later with
  | nil => exact h.1
  | cons first later ih => exact ih h.2

theorem AllJustified.append_answered (h : AllJustified events)
    (hrows : ∀ row ∈ rows, row.userId = caller.id ∨ caller.Manages .read) :
    AllJustified (rows.map (.answered caller) ++ events) := by
  induction rows with
  | nil => exact h
  | cons row rows ih =>
    exact ⟨hrows row List.mem_cons_self, ih fun other hother =>
      hrows other (List.mem_cons_of_mem _ hother)⟩

/-! ### What holds in every state -/

namespace TokensState

/-- What a request knows that has read a row: it may do this with the row, and the row has the
owner that it had, unless it was given away. -/
structure Reaches (s : TokensState) (caller : TokenCaller) (action : AuthorizationAction)
    (seen : DeviceToken) : Prop where
  allowed : seen.userId = caller.id ∨ caller.Manages action
  used : seen.id ∈ s.ids
  owner : ∀ row ∈ s.rows, row.id = seen.id →
    row.userId = seen.userId ∨ GivenAway s.events seen.id

def Expects (s : TokensState) : PendingToken → Prop
  | .updating caller ability _ seen =>
    caller.ability = .ok ability ∧ s.Reaches caller .update seen
  | .removing caller _ seen => s.Reaches caller .delete seen

/-- Every row has an id that was given out, and no other row has it. -/
structure KeepsIds (rows : List DeviceToken) (ids : List Uuid) : Prop where
  used : ∀ row ∈ rows, row.id ∈ ids
  unique : ∀ row ∈ rows, ∀ other ∈ rows, row.id = other.id → row = other

namespace KeepsIds

variable {ids : List Uuid}

theorem nil : KeepsIds [] [] := by
  constructor
  · intro row hrow
    cases hrow
  · intro row hrow
    cases hrow

theorem cons (h : KeepsIds rows ids) (hrow : row.id ∉ ids) :
    KeepsIds (row :: rows) (row.id :: ids) := by
  have hfresh : ∀ other ∈ rows, other.id ≠ row.id := fun other hother heq =>
    hrow (heq ▸ h.used other hother)
  constructor
  · intro other hother
    rcases List.mem_cons.mp hother with rfl | hold
    · exact List.mem_cons_self
    · exact List.mem_cons_of_mem _ (h.used other hold)
  · intro first hfirst second hsecond heq
    rcases List.mem_cons.mp hfirst with rfl | hold
    · rcases List.mem_cons.mp hsecond with rfl | hold'
      · rfl
      · exact absurd heq.symm (hfresh second hold')
    · rcases List.mem_cons.mp hsecond with rfl | hold'
      · exact absurd heq (hfresh first hold)
      · exact h.unique first hold second hold' heq

theorem replace (h : KeepsIds rows ids) (hrow : row.id = id) :
    KeepsIds (rows.map fun old => if old.id = id then row else old) ids := by
  have hkept : ∀ old : DeviceToken, (if old.id = id then row else old).id = old.id := by
    intro old
    split
    · next heq => rw [hrow, heq]
    · rfl
  constructor
  · intro other hother
    obtain ⟨old, hold, rfl⟩ := List.mem_map.mp hother
    rw [hkept]
    exact h.used old hold
  · intro first hfirst second hsecond heq
    obtain ⟨old, hold, rfl⟩ := List.mem_map.mp hfirst
    obtain ⟨old', hold', rfl⟩ := List.mem_map.mp hsecond
    rw [hkept, hkept] at heq
    rw [h.unique old hold old' hold' heq]

theorem sublist {kept : List DeviceToken} (h : KeepsIds rows ids) (hrows : kept.Sublist rows) :
    KeepsIds kept ids :=
  ⟨fun row hrow => h.used row (hrows.subset hrow), fun row hrow other hother =>
    h.unique row (hrows.subset hrow) other (hrows.subset hother)⟩

end KeepsIds

structure Sound (s : TokensState) : Prop where
  ids : KeepsIds s.rows s.ids
  pending : ∀ request pending, s.pending request = some pending → s.Expects pending
  events : AllJustified s.events
  audit : ∀ entry ∈ s.audit, ∀ snapshot, entry.snapshot = some snapshot →
    ∀ column ∈ snapshot, column.1 ∉ redactedColumns

/-- Rows keep their owners, or are given away. -/
structure Extends (s s' : TokensState) : Prop where
  ids : s.ids ⊆ s'.ids
  events : s.events ⊆ s'.events
  rows : ∀ row ∈ s'.rows, row.id ∈ s.ids → ∃ old ∈ s.rows, old.id = row.id ∧
    (row.userId = old.userId ∨ GivenAway s'.events row.id)

theorem Extends.of_eq (hids : s'.ids = s.ids) (hrows : s'.rows = s.rows)
    (hevents : s.events ⊆ s'.events) : s.Extends s' where
  ids := hids ▸ List.Subset.refl _
  events := hevents
  rows row hrow _ := ⟨row, hrows ▸ hrow, rfl, .inl rfl⟩

theorem Reaches.mono {seen : DeviceToken} (h : s.Reaches caller action seen)
    (hs : s.Extends s') : s'.Reaches caller action seen where
  allowed := h.allowed
  used := hs.ids h.used
  owner row hrow hid := by
    obtain ⟨old, hold, heq, howner⟩ := hs.rows row hrow (hid ▸ h.used)
    rcases howner with hsame | hgiven
    · rcases h.owner old hold (heq.trans hid) with hseen | hgiven
      · exact .inl (hsame.trans hseen)
      · exact .inr (hgiven.mono hs.events)
    · exact .inr (hid ▸ hgiven)

theorem Expects.mono {pending : PendingToken} (h : s.Expects pending) (hs : s.Extends s') :
    s'.Expects pending := by
  cases pending with
  | updating caller ability dto seen => exact ⟨h.1, h.2.mono hs⟩
  | removing caller ability seen => exact Reaches.mono h hs

namespace Sound

theorem empty : ({} : TokensState).Sound where
  ids := .nil
  pending _ _ h := by cases h
  events := trivial
  audit _ h := by cases h

/-- A change of the table, when no request begins. -/
theorem step (h : s.Sound) (hs : s.Extends s') (hids : KeepsIds s'.rows s'.ids)
    (hpending : s'.pending = s.pending) (hevents : AllJustified s'.events)
    (haudit : ∀ entry ∈ s'.audit, entry ∈ s.audit ∨ ∀ snapshot, entry.snapshot = some snapshot →
      ∀ column ∈ snapshot, column.1 ∉ redactedColumns) : s'.Sound where
  ids := hids
  pending request pending hsome := (h.pending request pending (hpending ▸ hsome)).mono hs
  events := hevents
  audit entry hentry := by
    rcases haudit entry hentry with hold | hnew
    · exact h.audit entry hold
    · exact hnew

/-- A request reads its row, or ends. -/
theorem setPending (h : s.Sound) {pending : Option PendingToken}
    (hpending : ∀ p, pending = some p → s.Expects p) :
    (s.setPending request pending).Sound where
  ids := h.ids
  pending other p hsome := by
    have hs : s.Extends (s.setPending request pending) :=
      .of_eq rfl rfl (List.Subset.refl _)
    rw [setPending_pending] at hsome
    split at hsome
    · exact (hpending p hsome).mono hs
    · exact (h.pending other p hsome).mono hs
  events := h.events
  audit := h.audit

theorem addUser (h : s.Sound) (userId : Uuid) : { s with users := userId :: s.users }.Sound :=
  h.step (.of_eq rfl rfl (List.Subset.refl _)) h.ids rfl h.events fun _ hentry => .inl hentry

theorem answer (h : s.Sound)
    (hrows : ∀ row ∈ rows, row.userId = caller.id ∨ caller.Manages .read) :
    (s.answer caller rows).Sound :=
  h.step (.of_eq rfl rfl (List.subset_append_right _ _)) h.ids rfl
    (h.events.append_answered hrows) fun _ hentry => .inl hentry

theorem createRow (h : s.Sound) {dto : CreateDeviceTokenDto} (hid : id ∉ s.ids)
    (hcreate : s.createRow caller dto id = .ok s') : s'.Sound := by
  unfold TokensState.createRow at hcreate
  cases hability : caller.ability with
  | error message => simp [hability, Except.mapError, bind, Except.bind] at hcreate
  | ok ability =>
    simp only [hability, Except.mapError, bind, Except.bind] at hcreate
    cases hcan : DeviceTokensService.assertCan ability .create
        (Record.of "userId" dto.userId) with
    | error failure => simp [hcan] at hcreate
    | ok _ =>
      simp only [hcan] at hcreate
      split at hcreate
      · cases hcreate
      · split at hcreate
        · cases hcreate
        · obtain rfl := Except.ok.inj hcreate
          have hcreated := of_assertCan hability hcan
          refine h.step ⟨List.subset_cons_self _ _, List.subset_cons_self _ _, ?_⟩ ?_ rfl
            ⟨hcreated, h.events⟩ ?_
          · intro row hrow hused
            rcases List.mem_cons.mp hrow with rfl | hold
            · exact absurd hused hid
            · exact ⟨row, hold, rfl, .inl rfl⟩
          · exact h.ids.cons hid
          · intro entry hentry
            rcases List.mem_cons.mp hentry with rfl | hold
            · exact .inr fun snapshot hsome => by cases hsome
            · exact .inl hold

/-- A row is written by its id, whoever owns it by now. -/
theorem writeRow (h : s.Sound) {dto : UpdateDeviceTokenDto} {seen : DeviceToken}
    (hseen : s.Reaches caller .update seen)
    (hdestination : ∀ userId, dto.userId = some userId →
      userId = caller.id ∨ caller.Manages .update)
    (hwrite : s.writeRow caller dto seen.id = .ok s') : s'.Sound := by
  unfold TokensState.writeRow at hwrite
  cases hfind : s.rows.find? fun row => row.id = seen.id with
  | none => simp [hfind] at hwrite
  | some before =>
    simp only [hfind] at hwrite
    split at hwrite
    · cases hwrite
    · split at hwrite
      · cases hwrite
      · obtain rfl := Except.ok.inj hwrite
        have hbefore := List.mem_of_find?_eq_some hfind
        have hid : before.id = seen.id := by simpa using List.find?_some hfind
        have hafter : (updated dto (some caller.id) before).id = seen.id := hid
        have hread : before.userId = caller.id ∨ caller.Manages .update ∨
            GivenAway s.events before.id := by
          rcases hseen.owner before hbefore hid with hsame | hgiven
          · rcases hseen.allowed with hown | hmanages
            · exact .inl (hsame.trans hown)
            · exact .inr (.inl hmanages)
          · exact .inr (.inr (hid ▸ hgiven))
        have hwritten : (updated dto (some caller.id) before).userId = before.userId ∨
            (updated dto (some caller.id) before).userId = caller.id ∨ caller.Manages .update := by
          cases hnamed : dto.userId with
          | none => exact .inl (by simp [updated, hnamed])
          | some userId =>
            refine .inr ((hdestination userId hnamed).imp_left fun hown => ?_)
            simp [updated, hnamed, hown]
        -- A caller who manages nothing can only take a token back that was given away before.
        have howner : (updated dto (some caller.id) before).userId = before.userId ∨
            GivenAway (.updated caller before (updated dto (some caller.id) before) :: s.events)
              seen.id := by
          by_cases hsame : (updated dto (some caller.id) before).userId = before.userId
          · exact .inl hsame
          · right
            by_cases hmanages : caller.Manages .update
            · exact ⟨caller, before, _, List.mem_cons_self, hmanages, hid, Ne.symm hsame⟩
            · have htaken := (hwritten.resolve_left hsame).resolve_right hmanages
              rcases hread with hown | hmanages' | hgiven
              · exact absurd (htaken.trans hown.symm) hsame
              · exact absurd hmanages' hmanages
              · exact (hid ▸ hgiven).mono (List.subset_cons_self _ _)
        refine h.step ⟨List.Subset.refl _, List.subset_cons_self _ _, ?_⟩ ?_ rfl
          ⟨⟨hread, hwritten⟩, h.events⟩ ?_
        · intro row hrow _
          obtain ⟨old, hold, rfl⟩ := List.mem_map.mp hrow
          split
          · refine ⟨before, hbefore, rfl, ?_⟩
            rw [hafter]
            exact howner
          · exact ⟨old, hold, rfl, .inl rfl⟩
        · exact h.ids.replace hafter
        · intro entry hentry
          rcases List.mem_cons.mp hentry with rfl | hold
          · exact .inr fun snapshot hsome => by cases hsome
          · exact .inl hold

theorem updateRow (h : s.Sound) {dto : UpdateDeviceTokenDto} {seen : DeviceToken}
    (hability : caller.ability = .ok ability) (hseen : s.Reaches caller .update seen)
    (hupdate : s.updateRow caller ability dto seen.id = .ok s') : s'.Sound := by
  unfold TokensState.updateRow at hupdate
  cases hcheck : assertDestination ability dto with
  | error failure => simp [hcheck] at hupdate
  | ok _ =>
    simp only [hcheck] at hupdate
    refine h.writeRow hseen (fun userId hsome => ?_) hupdate
    rw [assertDestination, hsome] at hcheck
    exact of_assertCan hability hcheck

theorem removeRow (h : s.Sound) {seen : DeviceToken} (hseen : s.Reaches caller .delete seen)
    (hremove : s.removeRow caller seen = .ok s') : s'.Sound := by
  unfold TokensState.removeRow at hremove
  cases hfind : s.rows.find? fun row => row.id = seen.id with
  | none => simp [hfind] at hremove
  | some found =>
    simp only [hfind, Except.ok.injEq] at hremove
    subst hremove
    have hfound := List.mem_of_find?_eq_some hfind
    have hid : found.id = seen.id := by simpa using List.find?_some hfind
    have hjustified : TokenEvent.Justified s.events (.removed caller found) := by
      rcases hseen.owner found hfound hid with hsame | hgiven
      · rcases hseen.allowed with hown | hmanages
        · exact .inl (hsame.trans hown)
        · exact .inr (.inl hmanages)
      · exact .inr (.inr (hid ▸ hgiven))
    refine h.step ⟨List.Subset.refl _, List.subset_cons_self _ _, ?_⟩ ?_ rfl
      ⟨hjustified, h.events⟩ ?_
    · intro row hrow _
      exact ⟨row, (List.mem_filter.mp hrow).1, rfl, .inl rfl⟩
    · exact h.ids.sublist List.filter_sublist
    · intro entry hentry
      rcases List.mem_cons.mp hentry with rfl | hold
      · refine .inr fun snapshot hsome column hcolumn => ?_
        obtain rfl := Option.some.inj hsome
        exact of_decide_eq_true (List.mem_filter.mp hcolumn).2
      · exact .inl hold

/-! ### Whole runs -/

theorem orElse (h : s.Sound) {result : Except TokenFailure TokensState}
    (hresult : ∀ next, result = .ok next → next.Sound) : (s.orElse result).Sound := by
  cases result with
  | ok next => exact hresult next rfl
  | error failure => exact h

theorem readRow (h : s.Sound)
    (haccess : AccessibleBy.Lawful DeviceToken.toRecord accessibleBy) {seen : DeviceToken}
    (hread : s.readRow accessibleBy caller action id = .ok (ability, seen)) :
    caller.ability = .ok ability ∧ s.Reaches caller action seen := by
  unfold TokensState.readRow at hread
  cases hability : caller.ability with
  | error message => simp [hability, Except.mapError, bind, Except.bind] at hread
  | ok ability' =>
    cases hfind : findById accessibleBy ability' s.rows action id with
    | error failure => simp [hability, hfind, Except.mapError, bind, Except.bind] at hread
    | ok found =>
      simp only [hability, hfind, Except.mapError, bind, Except.bind, pure, Except.pure,
        Except.ok.injEq, Prod.mk.injEq] at hread
      obtain ⟨rfl, rfl⟩ := hread
      obtain ⟨hmem, -, hallowed⟩ := of_findById haccess hability hfind
      exact ⟨rfl, hallowed, h.ids.used _ hmem, fun row hrow hid =>
        .inl (congrArg DeviceToken.userId (h.ids.unique row hrow _ hmem hid))⟩

/-- The step: whatever happens keeps the state sound. -/
theorem exec (h : s.Sound) (haccess : AccessibleBy.Lawful DeviceToken.toRecord accessibleBy)
    (action : TokensAction) (hstep : TokensState.exec accessibleBy s action = some s') :
    s'.Sound := by
  cases action with
  | addUser userId =>
    obtain rfl := Option.some.inj hstep
    exact h.addUser userId
  | create caller dto id =>
    simp only [TokensState.exec, Option.ite_none_left_eq_some, Option.some.injEq] at hstep
    obtain ⟨hid, rfl⟩ := hstep
    exact h.orElse fun next => h.createRow hid
  | list caller order page perPage =>
    obtain rfl := Option.some.inj hstep
    refine h.orElse fun next hnext => ?_
    cases hability : caller.ability with
    | error message => simp [hability, Except.mapError, bind, Except.bind] at hnext
    | ok ability =>
      cases hfind : DeviceTokensService.findPaginated accessibleBy ability s.rows order page
        perPage with
      | error failure => simp [hability, hfind, Except.mapError, bind, Except.bind] at hnext
      | ok found =>
        simp only [hability, hfind, Except.mapError, bind, Except.bind, pure, Except.pure,
          Except.ok.injEq] at hnext
        exact hnext ▸ h.answer (of_findPaginated haccess hability hfind)
  | find caller id =>
    obtain rfl := Option.some.inj hstep
    refine h.orElse fun next hnext => ?_
    cases hread : s.readRow accessibleBy caller .read id with
    | error failure => simp [hread, Except.map] at hnext
    | ok found =>
      simp only [hread, Except.map, Except.ok.injEq] at hnext
      subst hnext
      obtain ⟨-, hreaches⟩ := h.readRow haccess hread
      refine h.answer fun row hrow => ?_
      obtain rfl := List.mem_singleton.mp hrow
      exact hreaches.allowed
  | beginUpdate request caller id dto =>
    simp only [TokensState.exec, Option.ite_none_left_eq_some, Option.some.injEq] at hstep
    obtain ⟨-, rfl⟩ := hstep
    refine h.orElse fun next hnext => ?_
    cases hread : s.readRow accessibleBy caller .update id with
    | error failure => simp [hread, Except.map] at hnext
    | ok found =>
      simp only [hread, Except.map, Except.ok.injEq] at hnext
      subst hnext
      refine h.setPending fun p hp => ?_
      obtain rfl := Option.some.inj hp
      exact h.readRow haccess hread
  | beginRemove request caller id =>
    simp only [TokensState.exec, Option.ite_none_left_eq_some, Option.some.injEq] at hstep
    obtain ⟨-, rfl⟩ := hstep
    refine h.orElse fun next hnext => ?_
    cases hread : s.readRow accessibleBy caller .delete id with
    | error failure => simp [hread, Except.map] at hnext
    | ok found =>
      simp only [hread, Except.map, Except.ok.injEq] at hnext
      subst hnext
      refine h.setPending fun p hp => ?_
      obtain rfl := Option.some.inj hp
      exact (h.readRow haccess hread).2
  | finish request =>
    simp only [TokensState.exec, Option.bind_eq_bind, Option.bind_eq_some_iff,
      Option.some.injEq] at hstep
    obtain ⟨pending, hpending, rfl⟩ := hstep
    have hrest : (s.setPending request none).Sound := h.setPending fun p hp => by cases hp
    have hexpects : (s.setPending request none).Expects pending :=
      (h.pending request pending hpending).mono (.of_eq rfl rfl (List.Subset.refl _))
    cases pending with
    | updating caller ability dto seen =>
      exact hrest.orElse fun next => hrest.updateRow hexpects.1 hexpects.2
    | removing caller ability seen =>
      exact hrest.orElse fun next => hrest.removeRow hexpects

theorem run (haccess : AccessibleBy.Lawful DeviceToken.toRecord accessibleBy)
    (hrun : run (TokensState.exec accessibleBy) {} as = some s) : s.Sound :=
  run_induction (fun _ action _ h hstep => h.exec haccess action hstep) empty hrun

end Sound

end TokensState

/-! ### The results -/

/-- The caller of an event manages no tokens. -/
def TokenEvent.IsByMember (event : TokenEvent) : Prop := ∀ action, ¬ event.caller.Manages action

/-- The event is about a token of its caller, and leaves it to the caller. -/
def TokenEvent.IsOwn : TokenEvent → Prop
  | .created caller row | .answered caller row | .removed caller row => row.userId = caller.id
  | .updated caller before after => before.userId = caller.id ∧ after.userId = caller.id

theorem not_givenAway (h : ∀ event ∈ events, event.IsByMember) : ¬ GivenAway events id := by
  rintro ⟨caller, before, after, hmem, hmanages, -⟩
  exact h _ hmem .update hmanages

/-- Where nobody manages tokens of others, everyone sees, makes, changes and removes only its own,
and a token never changes hands. The audit trail holds no token. -/
theorem members_keep_their_tokens
    (haccess : AccessibleBy.Lawful DeviceToken.toRecord accessibleBy)
    (hrun : run (TokensState.exec accessibleBy) {} as = some s)
    (hmembers : ∀ event ∈ s.events, event.IsByMember) :
    (∀ event ∈ s.events, event.IsOwn) ∧
    ∀ entry ∈ s.audit, ∀ snapshot, entry.snapshot = some snapshot →
      ∀ column ∈ snapshot, column.1 ≠ "token" := by
  constructor
  · intro event hevent
    obtain ⟨later, earlier, hsplit⟩ := List.append_of_mem hevent
    have hjustified : TokenEvent.Justified earlier event := by
      have hs := (TokensState.Sound.run haccess hrun).events
      rw [hsplit] at hs
      exact hs.split
    have hgiven : ∀ id, ¬ GivenAway earlier id := fun id => not_givenAway fun other hother =>
      hmembers other (hsplit ▸ List.mem_append_right _ (List.mem_cons_of_mem _ hother))
    have hmember := hmembers event hevent
    cases event with
    | created caller row => exact hjustified.resolve_right (hmember _)
    | answered caller row => exact hjustified.resolve_right (hmember _)
    | updated caller before after =>
      have hbefore : before.userId = caller.id :=
        (hjustified.1.resolve_right fun h => h.elim (hmember _) (hgiven _))
      refine ⟨hbefore, ?_⟩
      rcases hjustified.2 with hsame | hown | hmanages
      · exact hsame.trans hbefore
      · exact hown
      · exact absurd hmanages (hmember _)
    | removed caller row =>
      exact hjustified.resolve_right fun h => h.elim (hmember _) (hgiven _)
  · intro entry hentry snapshot hsnapshot column hcolumn heq
    have hredacted := (TokensState.Sound.run haccess hrun).audit entry hentry snapshot hsnapshot
      column hcolumn
    rw [heq] at hredacted
    exact hredacted (by decide)

/-! ### A token that is given away -/

def member (id : Uuid) : TokenCaller := ⟨id, [], []⟩

def tokenManager : TokenCaller := ⟨"root", [manageAnyDeviceToken.toPermissionGrant], []⟩

/-- The caller of an event, and who has the token after it. -/
def TokenEvent.summary : TokenEvent → Uuid × Uuid
  | .created caller row | .answered caller row | .removed caller row => (caller.id, row.userId)
  | .updated caller _ after => (caller.id, after.userId)

def annsToken : CreateDeviceTokenDto := ⟨"ann", "secret", "APP", "PHONE", "IOS", "18"⟩

/-- Ann makes a token, and begins to change it. -/
def changingToken : List TokensAction :=
  [.addUser "ann", .addUser "bob", .create (member "ann") annsToken "1", .find (member "bob") "1",
    .beginUpdate 0 (member "ann") "1" { token := some "other" }]

/-- Meanwhile somebody gives the token to Bob. -/
def givenToken : List TokensAction :=
  changingToken ++ [.beginUpdate 1 tokenManager "1" { userId := some "bob" }, .finish 1, .finish 0]

/-- Nobody else does anything, and Ann removes the token. -/
def removedToken : List TokensAction :=
  changingToken ++ [.finish 0, .beginRemove 2 (member "ann") "1", .finish 2]

theorem members_keep_their_tokens_removed :
    ∃ s, run (TokensState.exec (accessibleByRules DeviceToken.toRecord)) {} removedToken =
      some s ∧ s.events.length = 3 ∧ (∀ event ∈ s.events, event.IsOwn) ∧ s.audit.length = 3 ∧
        ∀ entry ∈ s.audit, ∀ snapshot, entry.snapshot = some snapshot →
          ∀ column ∈ snapshot, column.1 ≠ "token" := by
  have hsample : ∃ s ∈ run (TokensState.exec (accessibleByRules DeviceToken.toRecord)) {}
      removedToken, s.events.length = 3 ∧ s.audit.length = 3 ∧
        ∀ event ∈ s.events, event.caller.grants.platformPermissions.isEmpty = true := by
    decide +kernel
  obtain ⟨s, hrun, hevents, haudit, hempty⟩ := hsample
  have hmembers : ∀ event ∈ s.events, event.IsByMember := by
    rintro event hevent action ⟨p, hp, -⟩
    rw [List.isEmpty_iff.mp (hempty event hevent)] at hp
    cases hp
  obtain ⟨hown, hsnapshots⟩ := members_keep_their_tokens accessibleByRules_lawful hrun hmembers
  exact ⟨s, hrun, hevents, hown, haudit, hsnapshots⟩

end NestApi
