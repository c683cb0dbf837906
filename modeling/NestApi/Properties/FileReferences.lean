import NestApi.Files.Runs

/-!
# File references

In every committed state the attached files are exactly those that an account shows, each shown
by one account. What is about to go or gone is shown by nobody, and only a file that waits to be
attached expires. A file is attached at most once: its status is never left for an earlier one,
and a row is never written again after it is gone.
-/

namespace NestApi

open Txn Files

/-- The two-way link between accounts and files. -/
structure FileReferencesHold (s : FileStore) : Prop where
  attached : ∀ x, s.IsAttached x ↔ ∃! userId, s.picture userId = some x
  deleting : ∀ f ∈ s.fileAssets, f.status = .deleting → ∀ userId, s.picture userId ≠ some f.id
  removed : ∀ x, s.fileAsset? x = none → ∀ userId, s.picture userId ≠ some x
  expiry : ∀ f ∈ s.fileAssets, f.expiresAt ≠ none ↔ f.status = .ready

/-- The entry made the file attached. -/
def Attaches (init : FileStore) (x : Uuid) (e : Entry FileStore FileEvent FileRequest)
    (l : FileLog) : Prop :=
  e.db.IsAttached x ∧ ¬ (stateOf init l).IsAttached x

/-- What becomes attached was not attached from the start, and did not become so before. -/
def AttachedOnce (init : FileStore) (log : FileLog) : Prop :=
  EveryEntry (fun e l => ∀ x, Attaches init x e l → ¬ init.IsAttached x ∧
    EveryEntry (fun e' l' => ¬ Attaches init x e' l') l) log

section

variable {env : FileEnv} {init : FileStore} {σ : FileConfig} {l l' : FileLog}
  {e : Entry FileStore FileEvent FileRequest} {s : FileStore} {x : Uuid}

theorem fileReferencesHold_of (hreferences : s.References)
    (hexpiry : ∀ f ∈ s.fileAssets, f.ExpiryMatches) : FileReferencesHold s where
  attached x := hreferences.existsUnique_iff x
  deleting f hf hstatus userId hpicture := by
    have hattached := hreferences.of_ref hpicture
    rw [FileStore.isAttached_iff (FileStore.fileAsset?_of_mem hf), hstatus] at hattached
    cases hattached
  removed x hnone userId hpicture := by
    obtain ⟨f, hf, -⟩ := hreferences.of_ref hpicture
    rw [hnone] at hf
    cases hf
  expiry := hexpiry

/-- The file is attached or beyond that, in every row that it may have. -/
def Spent (s : FileStore) (x : Uuid) : Prop :=
  ∀ f, s.fileAsset? x = some f → FileAssetStatus.attached.rank ≤ f.status.rank

theorem spent_of_isAttached (h : s.IsAttached x) : Spent s x := by
  obtain ⟨f, hf, hstatus⟩ := h
  intro g hg
  obtain rfl : f = g := Option.some_inj.mp (hf.symm.trans hg)
  rw [hstatus]

/-- A file that was attached is never attached again. -/
theorem FilesRunTo.spent (h : FilesRunTo env init σ) (hl : l <:+ l') (hl' : l' <:+ σ.world.log)
    (hattached : (stateOf init l).IsAttached x) : Spent (stateOf init l') x := by
  refine h.persists (P := fun s => Spent s x) hl hl' (spent_of_isAttached hattached) ?_
  intro w a L ev s hinv hinit hk hek hstep hspent g hg
  rcases hstep.row_after hg with ⟨f, hf, -, hrank⟩ | ⟨-, -, hnew, -⟩
  · exact (hspent f hf).trans hrank
  · obtain ⟨f, hf, -⟩ := hattached
    obtain ⟨hmem, hid⟩ := FileStore.fileAsset?_eq_some.mp hf
    exact absurd ⟨stateOf init l, ⟨l, hk, Nat.zero_le _, by rw [hinit]⟩, f, hmem, .inl hid⟩ hnew

theorem FilesRunTo.not_attaches (h : FilesRunTo env init σ) (hl : (e :: l') <:+ σ.world.log)
    (hbefore : l <:+ l') (hattached : (stateOf init l).IsAttached x) : ¬ Attaches init x e l' := by
  rintro ⟨⟨g, hg, hstatus⟩, hnot⟩
  have hspent := h.spent hbefore ((List.suffix_cons e l').trans hl) hattached
  obtain ⟨w, L, rfl, rfl, hinv, hstep⟩ := h.entry hl
  rcases hstep.row_after hg with ⟨f, hf, -, hrank⟩ | ⟨-, hprocessing, -⟩
  · have hle := hspent f hf
    have hf' : f.status = .attached := by
      rw [hstatus] at hrank
      cases hfs : f.status <;> simp [hfs, FileAssetStatus.rank] at hle hrank ⊢
    exact hnot ⟨f, hf, hf'⟩
  · rw [hstatus] at hprocessing
    cases hprocessing

end

/-- The references hold in every committed state of every run, and no file is attached twice. -/
theorem fileReferences_hold {env : FileEnv} {init : FileStore} {σ : FileConfig}
    (h : FilesRunTo env init σ) :
    (∀ s, σ.world.Since 0 s → FileReferencesHold s) ∧ AttachedOnce init σ.world.log := by
  constructor
  · rintro s ⟨l, hl, -, rfl⟩
    rw [h.init_eq]
    cases l with
    | nil =>
      obtain ⟨now, ids, hinit, -⟩ := h
      exact fileReferencesHold_of hinit.references hinit.expiry
    | cons e l =>
      obtain ⟨w, L, -, -, -, hstep⟩ := h.entry hl
      exact fileReferencesHold_of hstep.references hstep.expiry
  · refine everyEntry_iff.mpr fun e l hl x hattaches => ⟨fun hinit => ?_, ?_⟩
    · exact h.not_attaches hl (l := []) List.nil_suffix hinit hattaches
    · refine everyEntry_iff.mpr fun e' l' hl' hearlier => ?_
      exact h.not_attaches hl hl' hearlier.1 hattaches

/-- Ann uploads two files, shows the first one, then the second one, and the cleanup runs. -/
def changePicture : List (Order FileRequest) :=
  [.serve 1 (.upload (Sample.picture .succeeded) .profileImage "ann"), .statements 1 100,
    .serve 2 (.upload (Sample.picture .succeeded) .profileImage "ann"), .statements 2 100,
    .serve 3 (.setProfileImage "ann" (some "#i") "ann"), .statements 3 100,
    .serve 4 (.setProfileImage "ann" (some "#iii") "ann"), .statements 4 100,
    .serve 5 (.cleanUp []), .statements 5 100]

theorem fileReferences_hold_changePicture :
    (Sample.performFiles 5000 changePicture).world.db.picture "ann" = some "#iii" ∧
      (∀ s, (Sample.performFiles 5000 changePicture).world.Since 0 s → FileReferencesHold s) ∧
        AttachedOnce Sample.fileStore (Sample.performFiles 5000 changePicture).world.log :=
  ⟨by decide +kernel, fileReferences_hold (Sample.filesRunTo _ _)⟩

end NestApi
