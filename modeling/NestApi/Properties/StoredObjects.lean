import NestApi.Properties.FileReferences

/-!
# Stored objects

An object that no row names is one that no cleanup will find. A row goes only after a cleanup
deleted its object, so an object is left behind only by a put that comes after that delete. A
successful put of this kind is made good by its own upload, which finds that its row was taken. A
put that failed but wrote is not: its upload gives up the row, which may be gone already, and
leaves the object. So objects keep their rows in the runs in which the cleanup deletes the object
once more.
-/

namespace NestApi

open Txn Files

/-! ### The law and its condition -/

namespace FileEvent

/-- The object that an upload put. -/
def putKey? : FileEvent → Option StorageKey
  | .put key _ => some key
  | _ => none

/-- The object of a put that failed and had written. -/
def failedPutKey? : FileEvent → Option StorageKey
  | .put key (.failed true) => some key
  | _ => none

/-- The object that was deleted from the storage. -/
def deletedKey? : FileEvent → Option StorageKey
  | .discarded key true | .objectDeleted key true => some key
  | _ => none

/-- The storage refused a delete. -/
def IsFailedDelete : FileEvent → Prop
  | .discarded _ succeeded | .objectDeleted _ succeeded => succeeded = false
  | _ => False

instance : DecidablePred IsFailedDelete
  | .discarded _ succeeded | .objectDeleted _ succeeded =>
    inferInstanceAs (Decidable (succeeded = false))
  | .created .. | .updated .. | .removed _ | .put .. | .uploadReturned _ | .profileImageSet ..
  | .unchanged _ | .erased _ => inferInstanceAs (Decidable False)

end FileEvent

/-- Some row names each object. -/
def ObjectsNamed (s : FileStore) : Prop := ∀ o ∈ s.objects, s.NamesObject o.storageKey

instance (s : FileStore) : Decidable (ObjectsNamed s) :=
  inferInstanceAs (Decidable (∀ o ∈ s.objects.rows, _))

/-- Every upload that put its object has returned. -/
def UploadsReturned (log : FileLog) : Prop :=
  EveryEntry (fun e l => ∀ key ∈ e.event.putKey?,
    SomeEntry (fun r m => l.length < m.length ∧ r.event = .uploadReturned key) log) log

/-- The storage refused no delete. -/
def DeletesSucceed (log : FileLog) : Prop := ∀ e ∈ log, ¬ e.event.IsFailedDelete

/-- A put that failed, that wrote, and that came after a cleanup had deleted the object is followed
by another cleanup that deletes it. -/
def LateFailuresCleaned (log : FileLog) : Prop :=
  EveryEntry (fun e l => ∀ key ∈ e.event.failedPutKey?, Cleaned key l →
    SomeEntry (fun d m => l.length < m.length ∧ d.event = .objectDeleted key true) log) log

instance (log : FileLog) : Decidable (UploadsReturned log) :=
  inferInstanceAs (Decidable (EveryEntry _ log))

instance (log : FileLog) : Decidable (DeletesSucceed log) :=
  inferInstanceAs (Decidable (∀ e ∈ log, _))

instance (log : FileLog) : Decidable (LateFailuresCleaned log) :=
  inferInstanceAs (Decidable (EveryEntry _ log))

section

variable {env : FileEnv} {init : FileStore} {σ : FileConfig} {l l' k : FileLog}
  {e p : Entry FileStore FileEvent FileRequest} {s : FileStore} {key : StorageKey}

/-! ### Where an object comes from -/

/-- Nothing deleted the object since the history had length `n`. -/
def Undeleted (key : StorageKey) (n : ℕ) (log : FileLog) : Prop :=
  ∀ d m, (d :: m) <:+ log → n ≤ m.length → d.event.deletedKey? ≠ some key

theorem Undeleted.cons {n : ℕ} (h : Undeleted key n l) (he : e.event.deletedKey? ≠ some key) :
    Undeleted key n (e :: l) := by
  intro d m hm hn
  rcases List.suffix_cons_iff.mp hm with hnew | hold
  · obtain ⟨rfl, rfl⟩ := List.cons.inj hnew
    exact he
  · exact h d m hold hn

/-- What is stored was there from the start or was put, and was not deleted since. -/
def Comes (init : FileStore) (key : StorageKey) (l : FileLog) : Prop :=
  init.Stores key ∧ Undeleted key 0 l ∨
    ∃ p k outcome, (p :: k) <:+ l ∧ p.event = .put key outcome ∧ outcome.isWritten = true ∧
      Undeleted key (k.length + 1) l

theorem Comes.cons (h : Comes init key l) (he : e.event.deletedKey? ≠ some key) :
    Comes init key (e :: l) := by
  rcases h with ⟨hinit, hkept⟩ | ⟨p, k, outcome, hk, hev, hwritten, hkept⟩
  · exact .inl ⟨hinit, hkept.cons he⟩
  · exact .inr ⟨p, k, outcome, hk.trans (List.suffix_cons e l), hev, hwritten, hkept.cons he⟩

/-- What a step stores was stored before it and is not deleted by it, or it was put. -/
theorem StorageChange.stores_after {a : Agent FileRequest} {L : FileLock → Prop} {w : FileWorld}
    {ev : FileEvent} (h : StorageChange a L w s ev) (hstores : s.Stores key) :
    w.db.Stores key ∧ ev.deletedKey? ≠ some key ∨
      ∃ outcome, ev = .put key outcome ∧ outcome.isWritten = true := by
  cases h with
  | row _ hev hobjects =>
    refine .inl ⟨by rwa [FileStore.Stores, hobjects] at hstores, ?_⟩
    cases ev <;> simp [FileEvent.IsRowEvent, FileEvent.deletedKey?] at hev ⊢
  | put key' outcome hlock hdrew hknown hobjects =>
    rcases hobjects key hstores with ⟨rfl, hwritten⟩ | hold
    · exact .inr ⟨outcome, rfl, hwritten⟩
    · exact .inl ⟨hold, by simp [FileEvent.deletedKey?]⟩
  | discarded key' succeeded hobjects =>
    obtain ⟨hold, hne⟩ := hobjects key hstores
    refine .inl ⟨hold, ?_⟩
    cases succeeded with
    | false => simp [FileEvent.deletedKey?]
    | true => simpa [FileEvent.deletedKey?] using (hne rfl).symm
  | objectDeleted key' succeeded hdoomed hobjects =>
    obtain ⟨hold, hne⟩ := hobjects key hstores
    refine .inl ⟨hold, ?_⟩
    cases succeeded with
    | false => simp [FileEvent.deletedKey?]
    | true => simpa [FileEvent.deletedKey?] using (hne rfl).symm
  | uploadReturned key' hsettled hobjects =>
    exact .inl ⟨by rwa [FileStore.Stores, hobjects] at hstores, by simp [FileEvent.deletedKey?]⟩

/-- By induction on the history. -/
theorem FilesRunTo.comes (h : FilesRunTo env init σ) (hl : l <:+ σ.world.log)
    (hstores : (stateOf init l).Stores key) : Comes init key l := by
  induction l with
  | nil =>
    refine .inl ⟨hstores, fun d m hm => ?_⟩
    cases List.suffix_nil.mp hm
  | cons e l ih =>
    obtain ⟨w, L, rfl, rfl, hinv, hstep⟩ := h.entry hl
    rcases hstep.storage.stores_after hstores with ⟨hold, hkept⟩ | ⟨outcome, hev, hwritten⟩
    · exact (ih ((List.suffix_cons e w.log).trans hl) hold).cons hkept
    · refine .inr ⟨e, w.log, outcome, List.suffix_refl _, hev, hwritten, fun d m hm hlt => ?_⟩
      have hlong := hm.length_le
      simp only [List.length_cons] at hlong
      omega

/-! ### When a row goes -/

/-- An object keeps its row until a cleanup has deleted it. -/
theorem FilesRunTo.named (h : FilesRunTo env init σ) (hl : l <:+ l') (hl' : l' <:+ σ.world.log)
    (hnamed : (stateOf init l).NamesObject key) (hclean : ¬ Cleaned key l') :
    (stateOf init l').NamesObject key := by
  refine h.persists (P := fun s => s.NamesObject key) hl hl' hnamed ?_
  rintro w a L ev s hinv hinit hk hek hstep ⟨f, hf, rfl⟩
  rcases hstep.row_before (FileStore.fileAsset?_of_mem hf) with ⟨g, hg, hkey, -⟩ |
    ⟨-, -, hcleaned⟩
  · exact ⟨g, FileStore.mem_of_fileAsset? hg, hkey⟩
  · exact absurd (hcleaned.mono ((List.suffix_cons _ _).trans hek)) hclean

/-- A cleanup whose delete does not come after a put comes before it. -/
theorem cleaned_before {log : FileLog} {outcome : PutOutcome} (hcleaned : Cleaned key log)
    (hp : (p :: k) <:+ log) (hev : p.event = .put key outcome)
    (hkept : Undeleted key (k.length + 1) log) : Cleaned key k := by
  obtain ⟨d, hd, hdev⟩ := hcleaned
  obtain ⟨m, hm⟩ := exists_suffix_of_mem hd
  rcases Nat.lt_trichotomy m.length k.length with hlt | heq | hgt
  · exact ⟨d, (before_of_length_lt hm hp hlt).subset List.mem_cons_self, hdev⟩
  · obtain ⟨rfl, -⟩ := eq_of_length_eq hm hp heq
    rw [hev] at hdev
    cases hdev
  · exact absurd (by rw [hdev]; rfl) (hkept d m hm hgt)

/-- An upload that has returned left no object behind: its successful put came before any cleanup
of the object. -/
theorem FilesRunTo.not_cleaned_of_returned (h : FilesRunTo env init σ)
    (hreturned : UploadsReturned σ.world.log) (hdeletes : DeletesSucceed σ.world.log)
    (hp : (p :: k) <:+ σ.world.log) (hev : p.event = .put key .succeeded)
    (hkept : Undeleted key (k.length + 1) σ.world.log) : ¬ Cleaned key k := by
  have hreturn := everyEntry_iff.mp hreturned p k hp key (by rw [hev]; rfl)
  obtain ⟨r, m, hm, hlt, hr⟩ := someEntry_iff.mp hreturn
  obtain ⟨w, L, rfl, -, -, hstep⟩ := h.entry hm
  have hsettled : Settled key w.log := by
    have hstorage := hstep.storage
    rw [hr] at hstorage
    cases hstorage with
    | row _ hrow => exact hrow.elim
    | uploadReturned _ hsettled => exact hsettled
  rcases hsettled p k (before_of_length_lt hp hm hlt) hev with hclean |
    ⟨d, j, succeeded, hj, hlt', hd⟩
  · exact hclean
  · have hjlog := hj.trans ((List.suffix_cons r w.log).trans hm)
    cases succeeded with
    | true => exact absurd (by rw [hd]; rfl) (hkept d j hjlog hlt')
    | false =>
      have hfailed := hdeletes d (hjlog.subset List.mem_cons_self)
      rw [hd] at hfailed
      exact absurd rfl hfailed

end

/-- Objects keep their rows in every run in which a cleanup deletes once more what a late failing
put had written. -/
theorem objectsNamed_of_lateFailuresCleaned {env : FileEnv} {init : FileStore} {σ : FileConfig}
    (h : FilesRunTo env init σ) (hinit : ObjectsNamed init)
    (hreturned : UploadsReturned σ.world.log) (hdeletes : DeletesSucceed σ.world.log)
    (hlate : LateFailuresCleaned σ.world.log) : ObjectsNamed σ.world.db := by
  intro o ho
  by_contra hunnamed
  have hnow : stateOf init σ.world.log = σ.world.db := by
    rw [World.db, h.init_eq]
  -- a row that named the object once has gone, so a cleanup deleted the object
  have hcleaned : ∀ l, l <:+ σ.world.log → (stateOf init l).NamesObject o.storageKey →
      Cleaned o.storageKey σ.world.log := by
    intro l hl hnamed
    by_contra hclean
    exact hunnamed (hnow ▸ h.named hl (List.suffix_refl _) hnamed hclean)
  have hstores : (stateOf init σ.world.log).Stores o.storageKey := by
    rw [hnow]
    exact ⟨o, ho, rfl⟩
  rcases h.comes (List.suffix_refl _) hstores with
    ⟨⟨o', ho', hkey⟩, hkept⟩ | ⟨p, k, outcome, hp, hev, hwritten, hkept⟩
  · have hnamed : (stateOf init ([] : FileLog)).NamesObject o.storageKey := by
      rw [← hkey]
      exact hinit o' ho'
    obtain ⟨d, hd, hdev⟩ := hcleaned [] List.nil_suffix hnamed
    obtain ⟨m, hm⟩ := exists_suffix_of_mem hd
    exact hkept d m hm (Nat.zero_le _) (by rw [hdev]; rfl)
  · obtain ⟨w, L, rfl, rfl, -, hstep⟩ := h.entry hp
    have hknown : KnownObject w o.storageKey := by
      have hstorage := hstep.storage
      rw [hev] at hstorage
      cases hstorage with
      | row _ hrow => exact hrow.elim
      | put _ _ _ _ hknown => exact hknown
    obtain ⟨s, ⟨l, hl, -, rfl⟩, hnamed⟩ := hknown
    have hlog := hl.trans ((List.suffix_cons p w.log).trans hp)
    have hbefore := cleaned_before (hcleaned l hlog hnamed) hp hev hkept
    cases outcome with
    | succeeded => exact h.not_cleaned_of_returned hreturned hdeletes hp hev hkept hbefore
    | failed written =>
      obtain rfl : written = true := hwritten
      have hagain := everyEntry_iff.mp hlate p w.log hp o.storageKey (by rw [hev]; rfl) hbefore
      obtain ⟨d, m, hm, hlt, hd⟩ := someEntry_iff.mp hagain
      exact hkept d m hm hlt (by rw [hd]; rfl)

/-- The put of a stalled upload fails after having written, between two cleanups that both took up
its row. -/
def cleanedTwice : List (Order FileRequest) :=
  [.serve 1 (.upload (Sample.picture (.failed true)) .profileImage "ann"), .proceed 1,
    .pass 1000000, .serve 2 (.cleanUp []), .proceed 2, .proceed 2, .serve 3 (.cleanUp []),
    .proceed 3, .statements 3 2, .statements 1 100, .statements 3 100, .statements 2 100]

theorem objectsNamed_of_lateFailuresCleaned_cleanedTwice :
    ObjectsNamed (Sample.performFiles 5000 cleanedTwice).world.db :=
  objectsNamed_of_lateFailuresCleaned (Sample.filesRunTo _ _) (by decide) (by decide +kernel)
    (by decide +kernel) (by decide +kernel)

/-- A stalled upload whose row and object the cleanup removed, before the put fails. -/
def lateFailure : List (Order FileRequest) :=
  [.serve 1 (.upload (Sample.picture (.failed true)) .profileImage "ann"), .proceed 1,
    .pass 1000000, .serve 2 (.cleanUp []), .statements 2 100, .statements 1 100]

/-- The process has come to its end. -/
def hasEnded (σ : FileConfig) (p : ℕ) : Bool :=
  (σ.procs p).any fun proc =>
    match proc.prog with
    | .done _ | .fail _ => true
    | _ => false

/-- Both have come to their end and no delete failed, and the object stays without a row. -/
theorem not_objectsNamed_lateFailure :
    FilesRunTo Sample.fileEnv Sample.fileStore (Sample.performFiles 5000 lateFailure) ∧
      ObjectsNamed Sample.fileStore ∧
        hasEnded (Sample.performFiles 5000 lateFailure) 1 = true ∧
          hasEnded (Sample.performFiles 5000 lateFailure) 2 = true ∧
            UploadsReturned (Sample.performFiles 5000 lateFailure).world.log ∧
              DeletesSucceed (Sample.performFiles 5000 lateFailure).world.log ∧
                ¬ ObjectsNamed (Sample.performFiles 5000 lateFailure).world.db :=
  ⟨Sample.filesRunTo _ _, by decide, by decide +kernel, by decide +kernel, by decide +kernel,
    by decide +kernel, by decide +kernel⟩

end NestApi
