import NestApi.Protocol.Frames

/-!
# The invariant of histories

Every move within the guarantee keeps the invariant, which makes the guarantee a protocol.
An identifier that a process drew stays its own until the process commits it.
-/

namespace NestApi

open Txn

variable {a b : Agent Request} {L held : RowLock → Prop} {w w' : SystemWorld} {ev : Event}
  {db : Database}

/-- New rows under old keys are versions of old rows, so identities never change. -/
theorem Agree.push {α ι : Type} {key : α → Uuid} {rows : Database → Table key}
    {identity : α → ι} (h : Agree rows identity w)
    (hborn : ∀ r' ∈ rows db, (∃ r ∈ rows w.db, key r = key r' ∧ identity r = identity r') ∨
      ∀ d, w.Since 0 d → ∀ r ∈ rows d, key r ≠ key r') :
    Agree rows identity (w.push a ev db) := by
  have hnow := w.since_db (Nat.zero_le _)
  -- one of the two states is the new one: its row is an old row, or under a key of its own
  have hnew : ∀ d, w.Since 0 d → ∀ r ∈ rows d, ∀ r' ∈ rows db, key r = key r' →
      identity r = identity r' := by
    intro d hd r hr r' hr' hkey
    rcases hborn r' hr' with ⟨r₀, hr₀, hkey₀, hid₀⟩ | hfresh
    · exact (h d w.db hd hnow r hr r₀ hr₀ (hkey.trans hkey₀.symm)).trans hid₀
    · exact absurd hkey (hfresh d hd r hr)
  intro d d' hd hd' r hr r' hr' hkey
  rcases World.since_push.mp hd with hold | ⟨-, rfl⟩ <;>
    rcases World.since_push.mp hd' with hold' | ⟨-, rfl⟩
  · exact h d d' hold hold' r hr r' hr' hkey
  · exact hnew d hold r hr r' hr' hkey
  · exact (hnew d' hold' r' hr' r hr hkey.symm).symm
  · rw [Table.eq_of_key hr hr' hkey]

theorem Inv.move (h : Inv w) (hmove : Move guarantee w w') : Inv w' := by
  cases hmove with
  | tick n =>
    exact ⟨h.issued, h.memberships, h.invitations, h.tokens, fun e he reason userId cutoff hev =>
      (h.cutoffs e he reason userId cutoff hev).trans
        (nextWholeSecond_mono (Nat.le_add_right _ _))⟩
  | issue x p hx =>
    refine ⟨fun db hdb y hy => ?_, h.memberships, h.invitations, h.tokens, h.cutoffs⟩
    obtain ⟨r, hr⟩ := Option.ne_none_iff_exists'.mp (h.issued db hdb y hy)
    have hne : y ≠ x := by
      rintro rfl
      simp [hr] at hx
    have hfind : (w.issued.insert (x, some p)).find? y = some r := by
      rw [Table.find?_insert hne, hr]
    simp [World.issue, hfind]
  | act a held ev db hcommit =>
    have hnow := w.since_db (Nat.zero_le _)
    refine ⟨fun d hd x hx => ?_, h.memberships.push fun m' hm' => ?_,
      h.invitations.push fun i' hi' => ?_, h.tokens.push fun t' ht' => ?_,
      fun e he reason userId cutoff hev => ?_⟩
    · rcases World.since_push.mp hd with hd | ⟨-, rfl⟩
      · exact h.issued d hd x hx
      · rcases Commit.mentions hcommit hx with hold | hdrawn
        · exact h.issued _ hnow x hold
        · simpa [World.push] using fun hnone => by simp [hdrawn.issued] at hnone
    · rcases Commit.memberBorn hcommit hm' with ⟨m, hm, hid⟩ | ⟨hdrawn, -⟩
      · exact .inl ⟨m, hm, congrArg Prod.fst hid, hid⟩
      · exact .inr fun d hd m hm hid =>
          hdrawn.unused d hd (.inr (.inr (.inl ⟨m, hm, .inl hid⟩)))
    · rcases Commit.invitationBorn hcommit hi' with ⟨i, hi, hevolves⟩ | ⟨hdrawn, -⟩
      · exact .inl ⟨i, hi, hevolves.id_eq.symm, hevolves.identity.symm⟩
      · exact .inr fun d hd i hi hid =>
          hdrawn.unused d hd (.inr (.inr (.inr (.inl ⟨i, hi, hid⟩))))
    · rcases Commit.tokenBorn hcommit ht' with ⟨t, ht, hevolves⟩ | ⟨hdrawn, -⟩
      · exact .inl ⟨t, ht, (congrArg Prod.fst hevolves.identity).symm, hevolves.identity.symm⟩
      · exact .inr fun d hd t ht hid =>
          hdrawn.unused d hd (.inr (.inr (.inr (.inr ⟨t, ht, .inl hid⟩))))
    · rcases List.mem_cons.mp he with rfl | he
      · simp only at hev
        subst hev
        cases hcommit with
        | sessionsEnded _ _ _ _ _ _ _ _ _ hends =>
          obtain ⟨t, ht, rfl⟩ := hends.instant
          exact nextWholeSecond_mono ht
      · exact h.cutoffs e he reason userId cutoff hev

/-- The guarantee of the system, with its invariant. -/
def protocol : Protocol Database RowLock Event Uuid Request where
  guar := guarantee
  Inv := Inv
  inv_move := Inv.move

theorem Txn.Interf.inv (hw : Interf guarantee a held w w') (h : Inv w) : Inv w' :=
  hw.invariant (P := Inv) Inv.move h

/-! ### Drawn identifiers -/

/-- A new identifier is drawn and unused. -/
theorem Drawn.issue {x : Uuid} (h : Inv w) (hx : w.issued.find? x = none) :
    Drawn a (w.issue x a.pid) x where
  issued := by
    have hfresh : ∀ r ∈ w.issued, r.1 ≠ x := Table.find?_eq_none.mp hx
    exact Table.find?_eq_some.mpr ⟨(Table.mem_insert hfresh).mpr (.inr rfl), rfl⟩
  unused db hdb hmentions := h.issued db hdb x hmentions hx

/-- Nobody else uses an identifier that a process drew. -/
theorem Drawn.stable {x : Uuid} (hw : Interf guarantee a held w w') (h : Drawn a w x) :
    Drawn a w' x := by
  refine hw.stable (P := fun v => Drawn a v x) (fun {v v'} hv henv => ?_) h
  cases henv with
  | tick n => exact ⟨hv.issued, hv.unused⟩
  | issue y p hy =>
    have hne : x ≠ y := by
      rintro rfl
      simp [hv.issued] at hy
    exact ⟨by rw [← hv.issued]; exact Table.find?_insert hne, hv.unused⟩
  | other b others ev db hpid _ hcommit =>
    refine ⟨hv.issued, fun d hd hmentions => ?_⟩
    rcases World.since_push.mp hd with hd | ⟨-, rfl⟩
    · exact hv.unused d hd hmentions
    · rcases Commit.mentions hcommit hmentions with hold | hdrawn
      · exact hv.unused _ (v.since_db (Nat.zero_le _)) hold
      · have hissued := hdrawn.issued
        simp only [hv.issued, Option.some.injEq, Prod.mk.injEq, true_and] at hissued
        exact hpid hissued.symm
  | own ev hcommit =>
    refine ⟨hv.issued, fun d hd hmentions => ?_⟩
    rcases World.since_push.mp hd with hd | ⟨-, rfl⟩
    · exact hv.unused d hd hmentions
    · exact hv.unused _ (v.since_db (Nat.zero_le _)) hmentions

end NestApi
