import NestApi.Queue.RecurringSchedules

/-!
# What a reconciliation of the schedules converges to

The installer knows a scheduler by queue and id when it writes, and by its id alone when it
removes. A declared id that sits on another queue stays there.
-/

namespace NestApi

variable {Q J : Type} [DecidableEq Q]

/-! ### What the commands do -/

namespace Schedulers

variable {t : Schedulers Q J} {s x : JobScheduler Q J}

/-- An upsert puts the scheduler in the place of the one with its key. -/
theorem mem_upsertJobScheduler :
    x ∈ t.upsertJobScheduler s ↔ x = s ∨ x ∈ t ∧ x.key ≠ s.key := by
  unfold upsertJobScheduler
  split
  · next hkey =>
    have hover : ∀ y : JobScheduler Q J, y.key = s.key → s.overwrite.row y = s := by
      intro y hy
      obtain ⟨hqueue, hid⟩ := Prod.mk.inj hy
      simp only [JobScheduler.overwrite, hqueue, hid]
    constructor
    · intro hx
      rcases Txn.Table.of_mem_update hx with ⟨hmem, hne⟩ | ⟨y, -, hy, rfl⟩
      · exact .inr ⟨hmem, by simpa using hne⟩
      · exact .inl (hover y (by simpa using hy))
    · rintro (rfl | ⟨hmem, hne⟩)
      · obtain ⟨y, hy, hyk⟩ := List.mem_map.mp hkey
        have hrow := Txn.Table.mem_update_of_mem (f := x.overwrite) hy
          (List.mem_singleton.mpr hyk)
        rwa [hover y hyk] at hrow
      · exact Txn.Table.mem_update_of_not_mem hmem (by simpa using hne)
  · next hkey =>
    have hfresh : ∀ y ∈ t, y.key ≠ s.key := by
      intro y hy heq
      exact hkey (heq ▸ List.mem_map_of_mem hy)
    rw [Txn.Table.mem_insert hfresh]
    constructor
    · rintro (hx | rfl)
      · exact .inr ⟨hx, hfresh x hx⟩
      · exact .inl rfl
    · rintro (rfl | ⟨hx, -⟩)
      · exact .inr rfl
      · exact .inl hx

/-- A scheduler that is there already is not changed by its upsert. -/
theorem upsertJobScheduler_of_mem (hs : s ∈ t) : t.upsertJobScheduler s = t := by
  unfold upsertJobScheduler
  rw [if_pos (List.mem_map_of_mem hs)]
  apply Txn.Table.update_eq_self
  intro y hy hkey
  obtain rfl := Txn.Table.eq_of_key hy hs (by simpa using hkey)
  rfl

theorem mem_removeJobScheduler {q : Q} {id : String} :
    x ∈ t.removeJobScheduler q id ↔ x ∈ t ∧ x.key ≠ (q, id) := by
  simp [removeJobScheduler, Txn.Table.mem_delete]

theorem mem_listRecurringScheduleIds {q : Q} {id : String} :
    id ∈ t.listRecurringScheduleIds q ↔ ∃ s ∈ t, s.queueName = q ∧ s.schedulerId = id := by
  simp [listRecurringScheduleIds, and_assoc]

end Schedulers

namespace ScheduleRegistry

variable {r : ScheduleRegistry Q J} {t : Schedulers Q J} {x : JobScheduler Q J}

/-! ### What the loops do -/

/-- A scheduler whose key no upsert has stays. -/
theorem mem_install_of_mem {regs : List (RecurringScheduleRegistration J)} (hx : x ∈ t)
    (hkey : ∀ reg ∈ regs, (r.declared reg).key ≠ x.key) :
    x ∈ regs.foldl r.upsertRecurringSchedule t := by
  induction regs generalizing t with
  | nil => exact hx
  | cons reg regs ih =>
    apply ih
    · exact Schedulers.mem_upsertJobScheduler.mpr
        (.inr ⟨hx, (hkey reg List.mem_cons_self).symm⟩)
    · exact fun reg hreg => hkey reg (List.mem_cons_of_mem _ hreg)

/-- A scheduler after the upserts is a declared one, or it was there. -/
theorem of_mem_install {regs : List (RecurringScheduleRegistration J)}
    (hx : x ∈ regs.foldl r.upsertRecurringSchedule t) :
    (∃ reg ∈ regs, r.declared reg = x) ∨
      x ∈ t ∧ ∀ reg ∈ regs, (r.declared reg).key ≠ x.key := by
  induction regs generalizing t with
  | nil => exact .inr ⟨hx, by simp⟩
  | cons reg regs ih =>
    rcases ih hx with ⟨reg', hreg, rfl⟩ | ⟨hmem, hkey⟩
    · exact .inl ⟨reg', List.mem_cons_of_mem _ hreg, rfl⟩
    · rcases Schedulers.mem_upsertJobScheduler.mp hmem with rfl | ⟨hold, hne⟩
      · exact .inl ⟨reg, List.mem_cons_self, rfl⟩
      · exact .inr ⟨hold, List.forall_mem_cons.mpr ⟨hne.symm, hkey⟩⟩

/-- Declarations that agree are all there after the upserts. -/
theorem declared_mem_install {regs : List (RecurringScheduleRegistration J)}
    (hagree : ∀ reg ∈ regs, ∀ reg' ∈ regs, (r.declared reg).key = (r.declared reg').key →
      r.declared reg = r.declared reg') {reg : RecurringScheduleRegistration J}
    (hreg : reg ∈ regs) : r.declared reg ∈ regs.foldl r.upsertRecurringSchedule t := by
  induction regs generalizing t reg with
  | nil => exact absurd hreg List.not_mem_nil
  | cons first regs ih =>
    have hrest : ∀ reg ∈ regs, ∀ reg' ∈ regs, (r.declared reg).key = (r.declared reg').key →
        r.declared reg = r.declared reg' := fun reg h reg' h' =>
      hagree reg (List.mem_cons_of_mem _ h) reg' (List.mem_cons_of_mem _ h')
    -- the last declaration under the key is the one that stays
    by_cases hlater : ∃ reg' ∈ regs, (r.declared reg').key = (r.declared reg).key
    · obtain ⟨reg', hreg', hkey⟩ := hlater
      rw [← hagree reg' (List.mem_cons_of_mem _ hreg') reg hreg hkey]
      exact ih hrest hreg'
    · have hlast : ∀ reg' ∈ regs, (r.declared reg').key ≠ (r.declared reg).key := by
        simpa using hlater
      obtain rfl | hmem := List.mem_cons.mp hreg
      · rw [List.foldl_cons]
        apply mem_install_of_mem _ hlast
        exact Schedulers.mem_upsertJobScheduler.mpr (.inl rfl)
      · exact absurd rfl (hlast reg hmem)

/-- One queue loses the schedulers whose ids are unknown. -/
theorem mem_removeFrom {q : Q} {ids : List String} :
    x ∈ ids.foldl (r.removeUndeclaredSchedule q) t ↔
      x ∈ t ∧ (x.queueName = q → x.schedulerId ∈ ids →
        x.schedulerId ∈ r.registeredSchedulerIds) := by
  induction ids generalizing t with
  | nil => simp
  | cons id ids ih =>
    rw [List.foldl_cons, ih]
    unfold removeUndeclaredSchedule
    split
    · next hid =>
      simp only [List.mem_cons]
      grind
    · next hid =>
      rw [Schedulers.mem_removeJobScheduler]
      simp only [JobScheduler.key, ne_eq, Prod.mk.injEq, List.mem_cons]
      grind

/-- A scheduler survives the removals when its queue is not registered or its id is. -/
theorem mem_removeUndeclared : x ∈ r.removeUndeclaredSchedules t ↔
    x ∈ t ∧ (x.queueName ∈ r.registeredQueueNames →
      x.schedulerId ∈ r.registeredSchedulerIds) := by
  unfold removeUndeclaredSchedules
  induction r.registeredQueueNames generalizing t with
  | nil => simp
  | cons q queues ih =>
    rw [List.foldl_cons, ih, mem_removeFrom, Schedulers.mem_listRecurringScheduleIds]
    simp only [List.mem_cons]
    grind

/-! ### Convergence -/

/-- Each registered queue holds exactly what the registry declares for it. -/
def Installed (r : ScheduleRegistry Q J) (t : Schedulers Q J) : Prop :=
  ∀ q ∈ r.registeredQueueNames, ∀ s : JobScheduler Q J, s.queueName = q →
    (s ∈ t ↔ ∃ reg ∈ r.recurringSchedules, r.declared reg = s)

/-- A reconciliation installs the declared schedules, and a second one changes nothing. -/
def Converges (r : ScheduleRegistry Q J) (t : Schedulers Q J) : Prop :=
  r.Installed (r.reconcileNow t) ∧ r.reconcileNow (r.reconcileNow t) = r.reconcileNow t

/-- A declared id on a registered queue is declared for that queue. -/
def NoneMisplaced (r : ScheduleRegistry Q J) (t : Schedulers Q J) : Prop :=
  ∀ s ∈ t, s.queueName ∈ r.registeredQueueNames → s.schedulerId ∈ r.registeredSchedulerIds →
    ∃ reg ∈ r.recurringSchedules, (r.declared reg).key = s.key

/-- Two declarations of one id on one queue agree. -/
def Unambiguous (r : ScheduleRegistry Q J) : Prop :=
  ∀ reg ∈ r.recurringSchedules, ∀ reg' ∈ r.recurringSchedules,
    (r.declared reg).key = (r.declared reg').key → r.declared reg = r.declared reg'

/-- A scheduler that sits under a declared id, but not where it is declared, stays through a
reconciliation. -/
theorem misplaced_stays (hx : x ∈ t) (hid : x.schedulerId ∈ r.registeredSchedulerIds)
    (hkey : ∀ reg ∈ r.recurringSchedules, (r.declared reg).key ≠ x.key) :
    x ∈ r.reconcileNow t :=
  mem_removeUndeclared.mpr ⟨mem_install_of_mem hx hkey, fun _ => hid⟩

/-- Where nothing is misplaced, a reconciliation installs the declared schedules. -/
theorem installed_of_noneMisplaced (hplaced : r.NoneMisplaced t) (hr : r.Unambiguous) :
    r.Installed (r.reconcileNow t) := by
  rintro q hq s rfl
  constructor
  · intro hs
    obtain ⟨hmem, hid⟩ := mem_removeUndeclared.mp hs
    rcases of_mem_install hmem with hdeclared | ⟨hold, hkey⟩
    · exact hdeclared
    · obtain ⟨reg, hreg, heq⟩ := hplaced s hold hq (hid hq)
      exact absurd heq (hkey reg hreg)
  · rintro ⟨reg, hreg, rfl⟩
    exact mem_removeUndeclared.mpr
      ⟨declared_mem_install hr hreg, fun _ => (declared_registered hreg).2⟩

/-- Where the declared schedules are installed, a reconciliation changes nothing. -/
theorem reconcileNow_of_installed (h : r.Installed t) : r.reconcileNow t = t := by
  have hupserts : r.recurringSchedules.foldl r.upsertRecurringSchedule t = t := by
    apply List.foldlRecOn (motive := fun u => u = t) _ _ rfl
    rintro u rfl reg hreg
    exact Schedulers.upsertJobScheduler_of_mem
      ((h _ (declared_registered hreg).1 _ rfl).mpr ⟨reg, hreg, rfl⟩)
  have hids : ∀ q ∈ r.registeredQueueNames, ∀ id ∈ t.listRecurringScheduleIds q,
      id ∈ r.registeredSchedulerIds := by
    intro q hq id hid
    obtain ⟨s, hs, hqueue, rfl⟩ := Schedulers.mem_listRecurringScheduleIds.mp hid
    obtain ⟨reg, hreg, rfl⟩ := (h q hq s hqueue).mp hs
    exact (declared_registered hreg).2
  unfold reconcileNow installDeclaredSchedules
  rw [hupserts]
  apply List.foldlRecOn (motive := fun u => u = t) _ _ rfl
  rintro u rfl q hq
  apply List.foldlRecOn (motive := fun v => v = u) _ _ rfl
  rintro v rfl id hid
  exact if_pos (hids q hq id hid)

/-- A reconciliation converges exactly when no registered queue holds a declared id that is not
declared for it, and the declarations do not contradict each other. -/
theorem converges_iff (r : ScheduleRegistry Q J) (t : Schedulers Q J) :
    r.Converges t ↔ r.NoneMisplaced t ∧ r.Unambiguous := by
  constructor
  · rintro ⟨hinstalled, -⟩
    constructor
    · intro s hs hq hid
      by_contra hnone
      have hkey : ∀ reg ∈ r.recurringSchedules, (r.declared reg).key ≠ s.key := by
        simpa using hnone
      obtain ⟨reg, hreg, rfl⟩ :=
        (hinstalled _ hq s rfl).mp (misplaced_stays hs hid hkey)
      exact hkey reg hreg rfl
    · intro reg hreg reg' hreg' hkey
      refine Txn.Table.eq_of_key (t := r.reconcileNow t) ?_ ?_ hkey
      · exact (hinstalled _ (declared_registered hreg).1 _ rfl).mpr ⟨reg, hreg, rfl⟩
      · exact (hinstalled _ (declared_registered hreg').1 _ rfl).mpr ⟨reg', hreg', rfl⟩
  · rintro ⟨hplaced, hr⟩
    have hinstalled := installed_of_noneMisplaced hplaced hr
    exact ⟨hinstalled, reconcileNow_of_installed hinstalled⟩

end ScheduleRegistry

/-- What an earlier release left that ran the cleanup on the queue of the notifications. -/
def movedSchedule : Schedulers QueueName JobName where
  rows := [
    { queueName := .notifications, schedulerId := "files:cleanup:v1"
      repeatOptions := .pattern "*/10 * * * *" "UTC", name := .filesCleanupV1
      data := buildVersionedPayload .filesCleanupV1
      opts := jobRegistry.resolveJobOptions .filesCleanupV1 }]
  nodup := by simp

/-- The moved schedule stays on its old queue too. -/
theorem not_converges_moved : ¬ scheduleRegistry.Converges movedSchedule := by
  rintro ⟨hinstalled, -⟩
  have hrow : ∃ s ∈ movedSchedule, s.queueName = .notifications :=
    ⟨_, List.mem_singleton_self _, rfl⟩
  obtain ⟨s, hs, hqueue⟩ := hrow
  obtain rfl := List.mem_singleton.mp hs
  have hstays := ScheduleRegistry.misplaced_stays (r := scheduleRegistry) hs (by decide)
    (by decide)
  obtain ⟨reg, hreg, heq⟩ := (hinstalled _ (by decide) _ hqueue).mp hstays
  have hqueues : ∀ reg ∈ recurringSchedules, (jobRegistration reg.jobName).queueName ≠
      .notifications := by decide
  exact hqueues reg hreg (congrArg JobScheduler.queueName heq)

end NestApi
