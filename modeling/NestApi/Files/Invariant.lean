import NestApi.Files.Guarantee

/-!
# The invariant of the file system

What a step does to one row is said once, by the row after it and by the row before it. With it
every step keeps the invariant, and what a process knows about the names that it drew, about a
row that it locked and about an object that is about to go stays true whatever the others do.
-/

namespace NestApi

open Txn Files

variable {a : Agent FileRequest} {L held : FileLock → Prop} {w w' : FileWorld} {ev : FileEvent}
  {s : FileStore} {x userId : Uuid} {f g : FileAsset} {key : StorageKey} {log log' : FileLog}

/-! ### One row -/

theorem rank_deleting {status : FileAssetStatus}
    (h : FileAssetStatus.deleting.rank ≤ status.rank) : status = .deleting := by
  cases status <;> simp [FileAssetStatus.rank] at h ⊢

/-- A row after a step was there before it, or it is new. -/
theorem FileStep.row_after (h : FileStep a L w ev s) (hafter : s.fileAsset? x = some g) :
    (∃ f, w.db.fileAsset? x = some f ∧ g.storageKey = f.storageKey ∧
      f.status.rank ≤ g.status.rank) ∨
        (ev = .created x g.storageKey ∧ g.status = .processing ∧ ¬ Known w x ∧
          ¬ Known w g.storageKey.objectId ∧ Drew a w x ∧ Drew a w g.storageKey.objectId) := by
  cases h.files x with
  | kept hrow => exact .inl ⟨g, hrow.symm.trans hafter, rfl, Nat.le_refl _⟩
  | created f hev hbefore hnow hstatus hnew hobject hdrew hdrewObject =>
    obtain rfl : f = g := Option.some_inj.mp (hnow.symm.trans hafter)
    exact .inr ⟨hev, hstatus, hnew, hobject, hdrew, hdrewObject⟩
  | written f g' hbefore hnow hkey hrank hlock =>
    obtain rfl : g' = g := Option.some_inj.mp (hnow.symm.trans hafter)
    exact .inl ⟨f, hbefore, hkey, hrank⟩
  | removed f hbefore hnow =>
    rw [hafter] at hnow
    cases hnow

/-- A row before a step stays, or it goes after its object was cleaned up. -/
theorem FileStep.row_before (h : FileStep a L w ev s) (hbefore : w.db.fileAsset? x = some f) :
    (∃ g, s.fileAsset? x = some g ∧ g.storageKey = f.storageKey ∧
      f.status.rank ≤ g.status.rank) ∨
        (s.fileAsset? x = none ∧ f.status = .deleting ∧ Cleaned f.storageKey w.log) := by
  cases h.files x with
  | kept hrow => exact .inl ⟨f, hrow.trans hbefore, rfl, Nat.le_refl _⟩
  | created f' _ hnone =>
    rw [hbefore] at hnone
    cases hnone
  | written f' g hbefore' hafter hkey hrank hlock =>
    obtain rfl : f' = f := Option.some_inj.mp (hbefore'.symm.trans hbefore)
    exact .inl ⟨g, hafter, hkey, hrank⟩
  | removed f' hbefore' hafter hdeleting hcleaned hlock =>
    obtain rfl : f' = f := Option.some_inj.mp (hbefore'.symm.trans hbefore)
    exact .inr ⟨hafter, hdeleting, hcleaned⟩

/-! ### Names -/

theorem known_of_mem (h : f ∈ w.db.fileAssets) :
    Known w f.id ∧ Known w f.storageKey.objectId := by
  have hnow : w.Since 0 w.db := World.since_db (Nat.zero_le _)
  exact ⟨⟨w.db, hnow, f, h, .inl rfl⟩, ⟨w.db, hnow, f, h, .inr rfl⟩⟩

theorem knownObject_of_mem (h : f ∈ w.db.fileAssets) : KnownObject w f.storageKey :=
  ⟨w.db, World.since_db (Nat.zero_le _), f, h, rfl⟩

theorem KnownObject.known (h : KnownObject w key) : Known w key.objectId := by
  obtain ⟨s, hs, f, hf, rfl⟩ := h
  exact ⟨s, hs, f, hf, .inr rfl⟩

theorem Known.mono (hw : w.Extends w') (h : Known w x) : Known w' x := by
  obtain ⟨s, hs, hnames⟩ := h
  exact ⟨s, hw.since hs, hnames⟩

theorem KnownObject.mono (hw : w.Extends w') (h : KnownObject w key) : KnownObject w' key := by
  obtain ⟨s, hs, hnames⟩ := h
  exact ⟨s, hw.since hs, hnames⟩

theorem Cleaned.mono (hlog : log <:+ log') (h : Cleaned key log) : Cleaned key log' := by
  obtain ⟨e, he, hev⟩ := h
  exact ⟨e, hlog.subset he, hev⟩

/-- A name that is in use after a step was so before, or the process drew it. -/
theorem FileStep.known (h : FileStep a L w ev s) (hx : Known (w.push a ev s) x) :
    Known w x ∨ Drew a w x := by
  obtain ⟨s', hs', f, hf, hname⟩ := hx
  rcases World.since_push.mp hs' with hold | ⟨-, rfl⟩
  · exact .inl ⟨s', hold, f, hf, hname⟩
  · rcases h.row_after (FileStore.fileAsset?_of_mem hf) with ⟨f', hbefore, hkey, -⟩ |
      ⟨-, -, -, -, hdrew, hdrewObject⟩
    · obtain ⟨hmem, hid⟩ := FileStore.fileAsset?_eq_some.mp hbefore
      obtain ⟨hknown, hknownObject⟩ := known_of_mem hmem
      rcases hname with rfl | rfl
      · exact .inl (hid ▸ hknown)
      · exact .inl (hkey ▸ hknownObject)
    · rcases hname with rfl | rfl
      · exact .inr hdrew
      · exact .inr hdrewObject

/-- An object that is about to go stays so. -/
theorem Doomed.move (h : Doomed w key) (hmove : Move fileGuarantee w w') : Doomed w' key := by
  refine ⟨h.known.mono ⟨hmove.init_eq, hmove.log_suffix⟩, ?_⟩
  cases hmove with
  | tick | issue => exact h.deleting
  | act a L ev s hstep =>
    rintro g hg rfl
    rcases FileStep.row_after hstep (FileStore.fileAsset?_of_mem hg) with
      ⟨f, hbefore, hkey, hrank⟩ | ⟨-, -, -, hnew, -⟩
    · have hdeleting := h.deleting f (FileStore.mem_of_fileAsset? hbefore) hkey.symm
      rw [hdeleting] at hrank
      exact rank_deleting hrank
    · exact absurd h.known.known hnew

/-! ### The invariant -/

/-- The references are exclusive, the expiry matches the status, no two rows name one object,
names in use were drawn, and what was cleaned up or put is known. -/
structure FileInv (w : FileWorld) : Prop where
  references : w.db.References
  expiry : ∀ f ∈ w.db.fileAssets, f.ExpiryMatches
  unique : ∀ f ∈ w.db.fileAssets, ∀ g ∈ w.db.fileAssets, f.storageKey = g.storageKey → f.id = g.id
  drawn : ∀ x, Known w x → w.issued.find? x ≠ none
  cleaned : ∀ key, Cleaned key w.log → Doomed w key
  put : ∀ e ∈ w.log, ∀ key outcome, e.event = .put key outcome → KnownObject w key

theorem FileStep.unique (h : FileStep a L w ev s)
    (hunique : ∀ f ∈ w.db.fileAssets, ∀ g ∈ w.db.fileAssets, f.storageKey = g.storageKey →
      f.id = g.id) :
    ∀ f ∈ s.fileAssets, ∀ g ∈ s.fileAssets, f.storageKey = g.storageKey → f.id = g.id := by
  -- a new row names an object that no older row names
  have hnew : ∀ f ∈ w.db.fileAssets, ∀ g : FileAsset, ¬ Known w g.storageKey.objectId →
      f.storageKey ≠ g.storageKey := by
    rintro f hf g hunknown hkey
    exact hunknown (hkey ▸ (known_of_mem hf).2)
  intro f hf g hg hkey
  rcases h.row_after (FileStore.fileAsset?_of_mem hf) with ⟨f', hf', hkeyf, -⟩ |
    ⟨hevf, -, -, hobjectf, -⟩
  · obtain ⟨hmemf, hidf⟩ := FileStore.fileAsset?_eq_some.mp hf'
    rcases h.row_after (FileStore.fileAsset?_of_mem hg) with ⟨g', hg', hkeyg, -⟩ |
      ⟨-, -, -, hobjectg, -⟩
    · obtain ⟨hmemg, hidg⟩ := FileStore.fileAsset?_eq_some.mp hg'
      rw [← hidf, ← hidg]
      exact hunique f' hmemf g' hmemg (hkeyf ▸ hkeyg ▸ hkey)
    · exact absurd (hkeyf.symm.trans hkey) (hnew f' hmemf g hobjectg)
  · rcases h.row_after (FileStore.fileAsset?_of_mem hg) with ⟨g', hg', hkeyg, -⟩ | ⟨hevg, -⟩
    · obtain ⟨hmemg, -⟩ := FileStore.fileAsset?_eq_some.mp hg'
      exact absurd (hkeyg.symm.trans hkey.symm) (hnew g' hmemg f hobjectf)
    · exact (FileEvent.created.inj (hevf.symm.trans hevg)).1

theorem FileInv.move (h : FileInv w) (hmove : Move fileGuarantee w w') : FileInv w' := by
  have hextends : w.Extends w' := ⟨hmove.init_eq, hmove.log_suffix⟩
  cases hmove with
  | tick n =>
    exact ⟨h.references, h.expiry, h.unique, h.drawn,
      fun key hkey => (h.cleaned key hkey).move (.tick n),
      fun e he key outcome hev => (h.put e he key outcome hev).mono hextends⟩
  | issue y p hy =>
    refine ⟨h.references, h.expiry, h.unique, ?_,
      fun key hkey => (h.cleaned key hkey).move (.issue y p hy),
      fun e he key outcome hev => (h.put e he key outcome hev).mono hextends⟩
    intro x hx
    obtain ⟨r, hr⟩ := Option.ne_none_iff_exists'.mp (h.drawn x hx)
    have hne : x ≠ y := by
      rintro rfl
      simp [hr] at hy
    have hfind : (w.issued.insert (y, some p)).find? x = some r := by
      rw [Table.find?_insert hne, hr]
    simp [World.issue, hfind]
  | act a L ev s hstep =>
    refine ⟨hstep.references, hstep.expiry, hstep.unique h.unique, ?_, ?_, ?_⟩
    · intro x hx
      rcases FileStep.known hstep hx with hold | hdrew
      · exact h.drawn x hold
      · unfold Drew at hdrew
        simp [World.push, hdrew]
    · rintro key ⟨e, he, hev⟩
      rcases List.mem_cons.mp he with rfl | hold
      · cases hstep.storage with
        | row _ hrow =>
          rw [show ev = _ from hev] at hrow
          exact hrow.elim
        | objectDeleted _ _ hdoomed =>
          obtain ⟨rfl, -⟩ := FileEvent.objectDeleted.inj hev
          exact hdoomed.move (.act a L _ s hstep)
        | _ => cases hev
      · exact (h.cleaned key ⟨e, hold, hev⟩).move (.act a L ev s hstep)
    · intro e he key outcome hev
      rcases List.mem_cons.mp he with rfl | hold
      · cases hstep.storage with
        | row _ hrow =>
          rw [show ev = _ from hev] at hrow
          exact hrow.elim
        | put _ _ _ _ hknown =>
          obtain ⟨rfl, -⟩ := FileEvent.put.inj hev
          exact hknown.mono hextends
        | _ => cases hev
      · exact (h.put e hold key outcome hev).mono hextends

/-- The guarantee of the file system, with its invariant. -/
def fileProtocol : Protocol FileStore FileLock FileEvent Uuid FileRequest where
  guar := fileGuarantee
  Inv := FileInv
  inv_move := FileInv.move

/-! ### Later worlds -/

section Later

variable (hw : Moves fileGuarantee w w')
include hw

theorem Txn.Moves.fileInv (h : FileInv w) : FileInv w' := hw.invariant (J := FileInv) FileInv.move h

theorem Txn.Moves.doomed (h : Doomed w key) : Doomed w' key :=
  hw.invariant (J := fun v => Doomed v key) Doomed.move h

/-- What a process drew stays its own. -/
theorem Txn.Moves.drew (h : Drew a w x) : Drew a w' x := by
  refine hw.invariant (J := fun v => Drew a v x) (fun {v v'} hv hmove => ?_) h
  unfold Drew at hv ⊢
  cases hmove with
  | tick | act => exact hv
  | issue y q hy =>
    have hne : x ≠ y := by
      rintro rfl
      simp [hv] at hy
    have hfind : (v.issued.insert (y, some q)).find? x = v.issued.find? x :=
      Table.find?_insert hne
    exact hfind.trans hv

/-- A row keeps the object that it names. -/
theorem Txn.Moves.names (hknown : Known w x)
    (h : ∀ f, w.db.fileAsset? x = some f → f.storageKey = key) :
    ∀ f, w'.db.fileAsset? x = some f → f.storageKey = key := by
  have hboth : Known w' x ∧ ∀ f, w'.db.fileAsset? x = some f → f.storageKey = key := by
    refine hw.invariant (J := fun v => Known v x ∧ ∀ f, v.db.fileAsset? x = some f →
      f.storageKey = key) (fun {v v'} hv hmove => ?_) ⟨hknown, h⟩
    obtain ⟨hused, hnamed⟩ := hv
    refine ⟨hused.mono ⟨hmove.init_eq, hmove.log_suffix⟩, ?_⟩
    cases hmove with
    | tick | issue => exact hnamed
    | act b L ev s hstep =>
      intro g hg
      rcases FileStep.row_after hstep hg with ⟨f, hbefore, hkey, -⟩ | ⟨-, -, hnew, -⟩
      · exact hkey.trans (hnamed f hbefore)
      · exact absurd hused hnew
  exact hboth.2

end Later

section Interference

variable (hw : Interf fileGuarantee a held w w')
include hw

/-- A row stays as it is while it is locked. -/
theorem Txn.Interf.fileAsset?_eq (hlock : held (.fileAsset x))
    (hbefore : w.db.fileAsset? x = some f) : w'.db.fileAsset? x = some f := by
  refine hw.stable (P := fun v => v.db.fileAsset? x = some f) (fun {v v'} hv henv => ?_) hbefore
  cases henv with
  | tick | issue => exact hv
  | other b others ev s _ hdisjoint hstep =>
    have hfree := hdisjoint _ hlock
    cases FileStep.files hstep x with
    | kept hrow => exact hrow.trans hv
    | created _ _ hnone =>
      rw [hv] at hnone
      cases hnone
    | written _ _ _ _ _ _ hheld => exact absurd hheld hfree
    | removed _ _ _ _ _ hheld => exact absurd hheld hfree
  | own ev hstep => exact hv

/-- The same of an account. -/
theorem Txn.Interf.fileUser?_eq (hlock : held (.user userId)) :
    w'.db.toAccountStore.user? userId = w.db.toAccountStore.user? userId := by
  refine hw.stable (P := fun v => v.db.toAccountStore.user? userId =
    w.db.toAccountStore.user? userId) (fun {v v'} hv henv => ?_) rfl
  cases henv with
  | tick | issue => exact hv
  | other b others ev s _ hdisjoint hstep =>
    rcases FileStep.users hstep userId with hkept | hheld
    · exact hkept.trans hv
    · exact absurd hheld (hdisjoint _ hlock)
  | own ev hstep => exact hv

/-- Nobody else uses a name that a process drew. -/
theorem Txn.Interf.unknown (hdrew : Drew a w x) (h : ¬ Known w x) : ¬ Known w' x := by
  have hboth : Drew a w' x ∧ ¬ Known w' x := by
    refine hw.stable (P := fun v => Drew a v x ∧ ¬ Known v x) (fun {v v'} hv henv => ?_) ⟨hdrew, h⟩
    obtain ⟨hmine, hunknown⟩ := hv
    refine ⟨Txn.Moves.drew (.single henv.move) hmine, ?_⟩
    cases henv with
    | tick | issue => exact hunknown
    | other b others ev s hpid _ hstep =>
      intro hknown
      rcases FileStep.known hstep hknown with hold | hdrawn
      · exact hunknown hold
      · unfold Drew at hmine hdrawn
        simp only [hmine, Option.some.injEq, Prod.mk.injEq, true_and] at hdrawn
        exact hpid hdrawn.symm
    | own ev hstep =>
      rintro ⟨s, hs, hnames⟩
      rcases World.since_push.mp hs with hold | ⟨-, rfl⟩
      · exact hunknown ⟨s, hold, hnames⟩
      · exact hunknown ⟨_, World.since_db (Nat.zero_le _), hnames⟩
  exact hboth.2

/-- Nobody else puts the object of an upload. -/
theorem Txn.Interf.put_before (hdrew : Drew a w key.objectId)
    {e : Entry FileStore FileEvent FileRequest} {l : FileLog} {outcome : PutOutcome}
    (hl : (e :: l) <:+ w'.log) (hev : e.event = .put key outcome) : (e :: l) <:+ w.log := by
  induction hw with
  | refl => exact hl
  | tail hbefore hlast ih =>
    rename_i v v'
    have hmine : Drew a v key.objectId := Txn.Moves.drew (Interf.moves hbefore) hdrew
    cases hlast with
    | tick | issue => exact ih hl
    | other b others ev s hpid _ hstep =>
      rcases List.suffix_cons_iff.mp hl with hnew | hold
      · obtain ⟨rfl, rfl⟩ := List.cons.inj hnew
        cases FileStep.storage hstep with
        | row _ hrow =>
          rw [show ev = _ from hev] at hrow
          exact hrow.elim
        | put _ _ _ hdrawn =>
          obtain ⟨rfl, -⟩ := FileEvent.put.inj hev
          unfold Drew at hmine hdrawn
          simp only [hmine, Option.some.injEq, Prod.mk.injEq, true_and] at hdrawn
          exact absurd hdrawn.symm hpid
        | _ => cases hev
      · exact ih hold
    | own ev hstep =>
      rcases List.suffix_cons_iff.mp hl with hnew | hold
      · obtain ⟨rfl, rfl⟩ := List.cons.inj hnew
        cases FileStep.storage hstep with
        | row _ hrow =>
          rw [show ev = _ from hev] at hrow
          exact hrow.elim
        | put _ _ hlock => exact hlock.elim
        | _ => cases hev
      · exact ih hold

/-- An upload that is settled stays so. -/
theorem Txn.Interf.settled (hdrew : Drew a w key.objectId) (h : Settled key w.log) :
    Settled key w'.log := by
  intro e l hl hev
  rcases h e l (hw.put_before hdrew hl hev) hev with hclean | ⟨d, m, succeeded, hm, hlt, hd⟩
  · exact .inl hclean
  · exact .inr ⟨d, m, succeeded, hm.trans hw.log_suffix, hlt, hd⟩

end Interference

theorem drew_issue (hx : w.issued.find? x = none) : Drew a (w.issue x a.pid) x := by
  have hfresh : ∀ r ∈ w.issued, r.1 ≠ x := Table.find?_eq_none.mp hx
  exact Table.find?_eq_some.mpr ⟨(Table.mem_insert hfresh).mpr (.inr rfl), rfl⟩

/-- A name that is drawn was not in use. -/
theorem FileInv.unknown_issue (h : FileInv w) (hx : w.issued.find? x = none) :
    ¬ Known (w.issue x a.pid) x :=
  fun hknown => h.drawn x hknown hx

end NestApi
