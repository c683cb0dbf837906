import NestApi.AppVersions.Service

/-!
# Release trains stay valid and unique

Every row is on a registered train, and no train has a version twice. The unique index of the
database does not see a null, so the check of the service carries the second.
-/

namespace NestApi.AppVersions

open Txn

variable {α β : Type} {t t' : AppVersionTable} {id : String} {platform : AppPlatform}
  {deviceOs : Option DeviceOs}

/-- The system is one of the platform's, and null exactly when the platform has none. -/
def IsReleaseTrain (platform : AppPlatform) (deviceOs : Option DeviceOs) : Prop :=
  (deviceOs = none ↔ isSingleDistributionPlatform platform = true) ∧
    ∀ os ∈ deviceOs, os ∈ releaseTrainOsFor platform

/-- The invariant. -/
structure ReleaseTrainsHold (t : AppVersionTable) : Prop where
  registered : ∀ row ∈ t, IsReleaseTrain row.platform row.deviceOs
  unique : ∀ row ∈ t, ∀ other ∈ t, row.release = other.release → row = other

/-! ### What a task does -/

/-- A task that is refused changes nothing, and one that is answered meets a condition. -/
def Meets (task : AppVersionTask α) (t : AppVersionTable) (post : α → AppVersionTable → Prop) :
    Prop :=
  match task t with
  | .ok a t' => post a t'
  | .error _ t' => t' = t

/-- A task that only reads, and what it finds out. -/
def Finds (task : AppVersionTask α) (t : AppVersionTable) (found : α → Prop) : Prop :=
  Meets task t fun a t' => t' = t ∧ found a

theorem Meets.mono {task : AppVersionTask α} {post post' : α → AppVersionTable → Prop}
    (h : Meets task t post) (himp : ∀ a t', post a t' → post' a t') : Meets task t post' := by
  unfold Meets at h ⊢
  cases hrun : task t with
  | ok a t' =>
    rw [hrun] at h
    exact himp a t' h
  | error e t' =>
    rw [hrun] at h
    exact h

/-- Read first, then go on with what was found. -/
theorem Finds.bind {task : AppVersionTask α} {next : α → AppVersionTask β} {found : α → Prop}
    {post : β → AppVersionTable → Prop} (h : Finds task t found)
    (hnext : ∀ a, found a → Meets (next a) t post) : Meets (task >>= next) t post := by
  unfold Finds Meets at h
  unfold Meets
  simp only [Bind.bind, EStateM.bind]
  cases hrun : task t with
  | ok a t' =>
    rw [hrun] at h
    obtain ⟨rfl, ha⟩ := h
    exact hnext a ha
  | error e t' =>
    rw [hrun] at h
    exact h

theorem Meets.discard {task : AppVersionTask α} {post : AppVersionTable → Prop}
    (h : Meets task t fun _ t' => post t') : Meets (discard task) t fun _ t' => post t' := by
  unfold Meets at h ⊢
  simp only [Functor.discard, Functor.mapConst, EStateM.map, Function.comp_apply]
  cases hrun : task t with
  | ok a t' =>
    rw [hrun] at h
    simpa [hrun] using h
  | error e t' =>
    rw [hrun] at h
    simpa [hrun] using h

theorem Finds.pure {a : α} {found : α → Prop} (h : found a) :
    Finds (Pure.pure a : AppVersionTask α) t found := ⟨rfl, h⟩

theorem Finds.map {task : AppVersionTask α} {f : α → β} {found : α → Prop} {found' : β → Prop}
    (h : Finds task t found) (himp : ∀ a, found a → found' (f a)) :
    Finds (f <$> task) t found' := by
  unfold Finds Meets at h ⊢
  simp only [Functor.map, EStateM.map]
  cases hrun : task t with
  | ok a t' =>
    rw [hrun] at h
    exact ⟨h.1, himp a h.2⟩
  | error e t' =>
    rw [hrun] at h
    exact h

theorem Finds.throw {refusal : Refusal} {found : α → Prop} :
    Finds (MonadExcept.throw refusal : AppVersionTask α) t found := rfl

theorem Meets.throw {refusal : Refusal} {post : α → AppVersionTable → Prop} :
    Meets (MonadExcept.throw refusal) t post := rfl

theorem Finds.get : Finds MonadState.get t (· = t) := ⟨rfl, rfl⟩

/-! ### The steps of an operation -/

theorem resolveDeviceOs_finds {requested : Option (Option RequestedOs)} :
    Finds (resolveDeviceOs platform requested) t (IsReleaseTrain platform) := by
  unfold resolveDeviceOs
  split
  · next hsingle =>
    exact Finds.pure ⟨iff_of_true rfl hsingle, by simp⟩
  · next hmulti =>
    split
    · exact Finds.throw
    · next requested =>
      dsimp only
      split
      · next os =>
        split
        · next hos =>
          refine Finds.pure ⟨iff_of_false (by simp) hmulti, fun os' hos' => ?_⟩
          obtain rfl := Option.mem_some_iff.mp hos'
          exact hos
        · exact Finds.throw
      · exact Finds.throw

theorem assertVersionAvailable_finds {version : String} {excludeId : Option String} :
    Finds (assertVersionAvailable platform deviceOs version excludeId) t fun _ =>
      ∀ row ∈ t, row.release = (platform, deviceOs, version) → excludeId = some row.id := by
  refine Finds.get.bind fun s hs => ?_
  subst hs
  split
  · exact Finds.throw
  · next hfree =>
    refine Finds.pure fun row hrow hrelease => ?_
    by_contra hother
    exact hfree (List.any_eq_true.mpr ⟨row, hrow, by simp [hrelease, hother]⟩)

theorem findById_finds : Finds (findById id) t fun row => t.find? id = some row := by
  refine Finds.get.bind fun s hs => ?_
  subst hs
  split
  · next row hrow => exact Finds.pure hrow
  · exact Finds.throw

theorem insertAppVersion_meets {row : AppVersion} :
    Meets (insertAppVersion row) t fun _ t' => t.find? row.id = none ∧ t' = t.insert row := by
  refine Finds.get.bind fun s hs => ?_
  subst hs
  split
  · exact Meets.throw
  · next hfree =>
    simp only [Bool.or_eq_true, not_or, Option.not_isSome_iff_eq_none] at hfree
    exact ⟨hfree.1, rfl⟩

theorem updateAppVersion_meets {data : AppVersionUpdateInput} :
    Meets (updateAppVersion id data) t fun _ t' =>
      data.hasForbiddenNull = false ∧ t' = t.update [id] data.rewrite := by
  refine Finds.get.bind fun s hs => ?_
  subst hs
  split
  · exact Meets.throw
  · split
    · exact Meets.throw
    · next hallowed =>
      simp only [Bool.or_eq_true, not_or, Bool.not_eq_true] at hallowed
      exact ⟨hallowed.1, rfl⟩

theorem deleteAppVersion_meets :
    Meets (deleteAppVersion id) t fun _ t' => t' = t.delete [id] := by
  refine Finds.get.bind fun s hs => ?_
  subst hs
  split
  · exact Meets.throw
  · rfl

/-! ### The operations -/

/-- A new row is on a registered train that does not have its version yet. -/
theorem create_meets {dto : CreateAppVersionDto} {actorId : Option String} :
    Meets (create id dto actorId) t fun _ t' => ∃ row,
      t.find? row.id = none ∧ t' = t.insert row ∧ IsReleaseTrain row.platform row.deviceOs ∧
        ∀ other ∈ t, other.release ≠ row.release := by
  refine resolveDeviceOs_finds.bind fun deviceOs htrain => ?_
  refine assertVersionAvailable_finds.bind fun _ hfree => ?_
  have hunique : ∀ other ∈ t, other.release ≠ (dto.platform, deviceOs, dto.version) := by
    intro other hother hrelease
    cases hfree other hother hrelease
  split
  · exact Meets.throw
  · exact insertAppVersion_meets.mono fun _ t' h => ⟨_, h.1, h.2, htrain, hunique⟩

/-- The merged row is on a registered train that has its version in no other row. It stays on
its train when the update names neither the platform nor the system. -/
theorem update_meets (hinv : ReleaseTrainsHold t) {dto : UpdateAppVersionDto}
    {actorId : Option String} :
    Meets (update id dto actorId) t fun _ t' => ∃ (row : AppVersion) (data : AppVersionUpdateInput),
      t.find? id = some row ∧ t' = t.update [id] data.rewrite ∧
        IsReleaseTrain (data.apply row).platform (data.apply row).deviceOs ∧
        (∀ other ∈ t, other.release = (data.apply row).release → other.id = id) ∧
        (dto.platform = none → dto.deviceOs = none →
          (data.apply row).platform = row.platform ∧ (data.apply row).deviceOs = row.deviceOs) := by
  refine findById_finds.bind fun row hrow => ?_
  set platform := dto.platform.join.getD row.platform with hplatform
  set affected := dto.platform.isSome || dto.deviceOs.isSome with haffected
  -- What is written to the column, and what the row has afterwards.
  have hresolved : Finds (deviceOsToWrite affected platform dto.deviceOs) t fun deviceOs =>
      IsReleaseTrain platform (deviceOs.getD row.deviceOs) ∧
        (if affected then deviceOs.join else row.deviceOs) = deviceOs.getD row.deviceOs ∧
        (affected = false → deviceOs = none) := by
    unfold deviceOsToWrite
    split
    · next htouched =>
      exact resolveDeviceOs_finds.map fun deviceOs htrain => ⟨htrain, by simp, by simp [htouched]⟩
    · next huntouched =>
      refine Finds.pure ⟨?_, by simp, fun _ => rfl⟩
      have hsame : platform = row.platform := by
        simp only [haffected, Bool.or_eq_true, not_or, Option.not_isSome_iff_eq_none]
          at huntouched
        simp [hplatform, huntouched.1]
      rw [hsame]
      exact hinv.registered row (Table.mem_of_find? hrow)
  refine hresolved.bind fun deviceOs ⟨htrain, heffective, huntouched⟩ => ?_
  rw [heffective]
  refine assertVersionAvailable_finds.bind fun _ hfree => ?_
  refine updateAppVersion_meets.mono fun _ t' ⟨hnull, ht'⟩ => ⟨row, _, hrow, ht', ?_⟩
  refine ⟨htrain, fun other hother hrelease => ?_, fun hnoPlatform hnoOs => ?_⟩
  · exact (Option.some.inj (hfree other hother hrelease)).symm
  · have hnone : deviceOs = none := huntouched (by simp [haffected, hnoPlatform, hnoOs])
    simp [AppVersionUpdateInput.apply, hnoPlatform, hnone]

theorem remove_meets : Meets (remove id) t fun _ t' => t' = t.delete [id] :=
  findById_finds.bind fun _ _ => deleteAppVersion_meets

/-! ### The invariant -/

theorem ReleaseTrainsHold.insert {row : AppVersion} (h : ReleaseTrainsHold t)
    (hnew : t.find? row.id = none) (htrain : IsReleaseTrain row.platform row.deviceOs)
    (hfree : ∀ other ∈ t, other.release ≠ row.release) : ReleaseTrainsHold (t.insert row) := by
  have hmem : ∀ s, s ∈ t.insert row ↔ s ∈ t ∨ s = row := fun s =>
    Table.mem_insert (Table.find?_eq_none.mp hnew)
  constructor
  · intro s hs
    rcases (hmem s).mp hs with hs | rfl
    · exact h.registered s hs
    · exact htrain
  · intro s hs other hother hrelease
    rcases (hmem s).mp hs with hold | rfl
    · rcases (hmem other).mp hother with hold' | rfl
      · exact h.unique s hold other hold' hrelease
      · exact absurd hrelease (hfree s hold)
    · rcases (hmem other).mp hother with hold' | rfl
      · exact absurd hrelease.symm (hfree other hold')
      · rfl

theorem ReleaseTrainsHold.update {row : AppVersion} {data : AppVersionUpdateInput}
    (h : ReleaseTrainsHold t) (hrow : t.find? id = some row)
    (htrain : IsReleaseTrain (data.apply row).platform (data.apply row).deviceOs)
    (hfree : ∀ other ∈ t, other.release = (data.apply row).release → other.id = id) :
    ReleaseTrainsHold (t.update [id] data.rewrite) := by
  -- A row of the new table is the merged one, or an old one with another id.
  have hcases : ∀ s ∈ t.update [id] data.rewrite,
      s = data.apply row ∨ s ∈ t ∧ s.id ≠ id := by
    intro s hs
    rcases Table.of_mem_update hs with ⟨hold, hid⟩ | ⟨r, hr, hid, rfl⟩
    · exact .inr ⟨hold, by simpa using hid⟩
    · obtain rfl : r = row := Table.eq_of_key hr (Table.mem_of_find? hrow)
        ((List.mem_singleton.mp hid).trans (Table.key_of_find? hrow).symm)
      exact .inl rfl
  constructor
  · intro s hs
    rcases hcases s hs with rfl | ⟨hold, -⟩
    · exact htrain
    · exact h.registered s hold
  · intro s hs other hother hrelease
    rcases hcases s hs with rfl | ⟨hold, hid⟩
    · rcases hcases other hother with rfl | ⟨hold', hid'⟩
      · rfl
      · exact absurd (hfree other hold' hrelease.symm) hid'
    · rcases hcases other hother with rfl | ⟨hold', -⟩
      · exact absurd (hfree s hold hrelease) hid
      · exact h.unique s hold other hold' hrelease

theorem ReleaseTrainsHold.delete (h : ReleaseTrainsHold t) (ids : List String) :
    ReleaseTrainsHold (t.delete ids) :=
  ⟨fun row hrow => h.registered row (Table.mem_delete.mp hrow).1,
    fun row hrow other hother =>
      h.unique row (Table.mem_delete.mp hrow).1 other (Table.mem_delete.mp hother).1⟩

/-! ### Every sequence -/

/-- What holds of one request: the invariant afterwards, no change when it is refused, and no
change of train by an update that names none. -/
structure ServedWell (t : AppVersionTable) (request : AppVersionRequest) : Prop where
  holds : ReleaseTrainsHold (serve t request)
  refused : ∀ refusal t', perform request t = .error refusal t' → t' = t
  sameTrain : ∀ id dto actorId, request = .update id dto actorId → dto.platform = none →
    dto.deviceOs = none → ∀ row, t.find? id = some row →
      ∃ row', (serve t request).find? id = some row' ∧ row'.platform = row.platform ∧
        row'.deviceOs = row.deviceOs

theorem perform_meets (hinv : ReleaseTrainsHold t) (request : AppVersionRequest) :
    Meets (perform request) t fun _ t' => ReleaseTrainsHold t' ∧
      ∀ id dto actorId, request = .update id dto actorId → dto.platform = none →
        dto.deviceOs = none → ∀ row, t.find? id = some row →
          ∃ row', t'.find? id = some row' ∧ row'.platform = row.platform ∧
            row'.deviceOs = row.deviceOs := by
  cases request with
  | create id dto actorId =>
    refine Meets.discard (create_meets.mono ?_)
    rintro _ t' ⟨row, hnew, rfl, htrain, hfree⟩
    exact ⟨hinv.insert hnew htrain hfree, by simp⟩
  | update id dto actorId =>
    refine Meets.discard ((update_meets hinv).mono ?_)
    rintro _ t' ⟨row, data, hrow, rfl, htrain, hfree, hsame⟩
    refine ⟨hinv.update hrow htrain hfree, ?_⟩
    rintro _ _ _ ⟨⟩ hplatform hdeviceOs old hold
    obtain rfl := Option.some.inj (hrow.symm.trans hold)
    refine ⟨data.apply row, ?_, hsame hplatform hdeviceOs⟩
    rw [Table.find?_update, hrow, Option.map_some, if_pos (List.mem_singleton_self id)]
    rfl
  | remove id =>
    refine remove_meets.mono ?_
    rintro _ t' rfl
    exact ⟨hinv.delete [id], by simp⟩

theorem servedWell (hinv : ReleaseTrainsHold t) (request : AppVersionRequest) :
    ServedWell t request := by
  have hmeets := perform_meets hinv request
  unfold Meets at hmeets
  cases hrun : perform request t with
  | ok _ t' =>
    rw [hrun] at hmeets
    have hserve : serve t request = t' := by simp [serve, hrun]
    exact ⟨hserve.symm ▸ hmeets.1, by simp [hrun], hserve.symm ▸ hmeets.2⟩
  | error refusal t' =>
    rw [hrun] at hmeets
    have hserve : serve t request = t := by simpa [serve, hrun] using hmeets
    refine ⟨hserve.symm ▸ hinv, fun _ t'' h => ?_, ?_⟩
    · obtain ⟨-, rfl⟩ := EStateM.Result.error.inj (hrun.symm.trans h)
      exact hmeets
    · rintro id dto actorId - - - row hrow
      exact ⟨row, hserve.symm ▸ hrow, rfl, rfl⟩

/-- Whatever operators ask for, one request after another, every table that is reached has valid
and unique release trains, and the next request is served well. -/
theorem releaseTrains_hold (t : AppVersionTable) (hinv : ReleaseTrainsHold t)
    (requests : List AppVersionRequest) (request : AppVersionRequest) :
    ReleaseTrainsHold (requests.foldl serve t) ∧ ServedWell (requests.foldl serve t) request := by
  have hreached : ReleaseTrainsHold (requests.foldl serve t) := by
    induction requests generalizing t with
    | nil => exact hinv
    | cons first rest ih => exact ih (serve t first) (servedWell hinv first).holds
  exact ⟨hreached, servedWell hreached request⟩

/-- A release for the web. -/
def webRelease : CreateAppVersionDto where
  version := "1.0.0"
  description := none
  platform := .web
  deviceOs := none
  releaseDate := "2026-07-30T09:00:00.000Z"
  downloadUrl := none
  isForceUpdate := none

/-- The release for the web moved to a train of a phone. -/
def toMobile : UpdateAppVersionDto where
  version := none
  description := none
  platform := some (some .mobile)
  deviceOs := some (some (.known .ios))
  releaseDate := none
  downloadUrl := none
  isForceUpdate := none

theorem releaseTrains_hold_at :
    ReleaseTrainsHold ([.create "1" webRelease none, .create "2" webRelease none].foldl serve
        Table.empty) ∧
      ServedWell ([.create "1" webRelease none, .create "2" webRelease none].foldl serve
        Table.empty) (.update "1" toMobile none) :=
  releaseTrains_hold Table.empty
    ⟨fun _ hrow => absurd hrow Table.not_mem_empty,
      fun _ hrow => absurd hrow Table.not_mem_empty⟩ _ _

/-- The second release with a null system is refused, which the index would let through. -/
example : ([.create "1" webRelease none, .create "2" webRelease none].foldl serve
    Table.empty).rows.map AppVersion.id = ["1"] := by decide

end NestApi.AppVersions
