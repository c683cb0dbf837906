import NestApi.Files.Service
import NestApi.Txn.Soundness

/-!
# What a step of the file system does

A committed write is judged by its effect: on each row of `file_assets`, on the accounts, on the
objects, and on the references between accounts and files, which it leaves exclusive. A row is
written and removed under its lock, and its status is never left for an earlier one.
-/

namespace NestApi

open Txn Files

/-- A history of the file system. -/
abbrev FileLog := List (Entry FileStore FileEvent FileRequest)

/-- The pictures are exactly the attached files, each shown by one account. -/
def FileStore.References (s : FileStore) : Prop := ExclusiveRefs s.picture s.IsAttached

/-- The event of a step that leaves the storage alone. -/
def FileEvent.IsRowEvent : FileEvent → Prop
  | .created .. | .updated .. | .removed _ | .profileImageSet .. | .unchanged _ | .erased _ => True
  | .put .. | .discarded .. | .objectDeleted .. | .uploadReturned _ => False

/-! ### What has happened -/

/-- Some row had this name, as its id or in the name of its object. -/
def Known (w : FileWorld) (x : Uuid) : Prop :=
  ∃ s, w.Since 0 s ∧ ∃ f ∈ s.fileAssets, f.id = x ∨ f.storageKey.objectId = x

/-- Some row named this object. -/
def KnownObject (w : FileWorld) (key : StorageKey) : Prop := ∃ s, w.Since 0 s ∧ s.NamesObject key

/-- The process drew the name. -/
def Drew (a : Agent FileRequest) (w : FileWorld) (x : Uuid) : Prop :=
  w.issued.find? x = some (x, some a.pid)

/-- The cleanup deleted the object. -/
def Cleaned (key : StorageKey) (log : FileLog) : Prop :=
  ∃ e ∈ log, e.event = .objectDeleted key true

instance (key : StorageKey) (log : FileLog) : Decidable (Cleaned key log) :=
  inferInstanceAs (Decidable (∃ e ∈ log, _))

/-- Whatever row names the object is about to go. -/
structure Doomed (w : FileWorld) (key : StorageKey) : Prop where
  known : KnownObject w key
  deleting : ∀ f ∈ w.db.fileAssets, f.storageKey = key → f.status = .deleting

/-- Every successful put of the object came before any cleanup of it, or its upload went on to
delete the object. -/
def Settled (key : StorageKey) (log : FileLog) : Prop :=
  ∀ e l, (e :: l) <:+ log → e.event = .put key .succeeded → ¬ Cleaned key l ∨
    ∃ d m succeeded, (d :: m) <:+ log ∧ l.length < m.length ∧ d.event = .discarded key succeeded

/-! ### The steps -/

/-- What a step does to a row. -/
inductive FileChange (a : Agent FileRequest) (L : FileLock → Prop) (w : FileWorld)
    (ev : FileEvent) (s : FileStore) (x : Uuid) : Prop
  | kept (hrow : s.fileAsset? x = w.db.fileAsset? x)
  | created (f : FileAsset) (hev : ev = .created x f.storageKey)
      (hbefore : w.db.fileAsset? x = none) (hafter : s.fileAsset? x = some f)
      (hstatus : f.status = .processing) (hnew : ¬ Known w x)
      (hobject : ¬ Known w f.storageKey.objectId) (hdrew : Drew a w x)
      (hdrewObject : Drew a w f.storageKey.objectId)
  | written (f g : FileAsset) (hbefore : w.db.fileAsset? x = some f)
      (hafter : s.fileAsset? x = some g) (hkey : g.storageKey = f.storageKey)
      (hrank : f.status.rank ≤ g.status.rank) (hlock : L (.fileAsset x))
  | removed (f : FileAsset) (hbefore : w.db.fileAsset? x = some f)
      (hafter : s.fileAsset? x = none) (hdeleting : f.status = .deleting)
      (hcleaned : Cleaned f.storageKey w.log) (hlock : L (.fileAsset x))

/-- What a step does to the objects. Only an upload puts the object that it drew. -/
inductive StorageChange (a : Agent FileRequest) (L : FileLock → Prop) (w : FileWorld)
    (s : FileStore) : FileEvent → Prop
  | row (ev : FileEvent) (hev : ev.IsRowEvent) (hobjects : s.objects = w.db.objects) :
      StorageChange a L w s ev
  | put (key : StorageKey) (outcome : PutOutcome) (hlock : L (.object key))
      (hdrew : Drew a w key.objectId) (hknown : KnownObject w key)
      (hobjects : ∀ k, s.Stores k → k = key ∧ outcome.isWritten = true ∨ w.db.Stores k) :
      StorageChange a L w s (.put key outcome)
  | discarded (key : StorageKey) (succeeded : Bool)
      (hobjects : ∀ k, s.Stores k → w.db.Stores k ∧ (succeeded = true → k ≠ key)) :
      StorageChange a L w s (.discarded key succeeded)
  | objectDeleted (key : StorageKey) (succeeded : Bool) (hdoomed : Doomed w key)
      (hobjects : ∀ k, s.Stores k → w.db.Stores k ∧ (succeeded = true → k ≠ key)) :
      StorageChange a L w s (.objectDeleted key succeeded)
  | uploadReturned (key : StorageKey) (hsettled : Settled key w.log)
      (hobjects : s.objects = w.db.objects) : StorageChange a L w s (.uploadReturned key)

/-- The steps. -/
structure FileStep (a : Agent FileRequest) (L : FileLock → Prop) (w : FileWorld) (ev : FileEvent)
    (s : FileStore) : Prop where
  files : ∀ x, FileChange a L w ev s x
  users : ∀ userId, s.toAccountStore.user? userId = w.db.toAccountStore.user? userId ∨
    L (.user userId)
  expiry : ∀ f ∈ s.fileAssets, f.ExpiryMatches
  references : s.References
  storage : StorageChange a L w s ev

/-- The guarantee of the file system. -/
def fileGuarantee : Guarantee FileStore FileLock FileEvent Uuid FileRequest := FileStep

end NestApi
