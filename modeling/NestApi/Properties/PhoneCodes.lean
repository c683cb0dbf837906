import NestApi.Properties.ResetLinks
import NestApi.Properties.VerifiedPhone

/-!
# Codes are confirmed once

A texted code lives in the slot of its account, which reset links use as well. A code is known by
the write that put it there. Confirming compares the slot that was read, and the write that
clears the slot does not look again. So a confirmation is about the code that it clears exactly
when nothing wrote the slot between the two.
-/

namespace NestApi

open Txn Accounts AccountEvent

/-! ### Who wrote the slot -/

/-- What the slot of the account holds. -/
def Account.slot (u : Account) : Option String × Option OtpPurpose × Option ℕ :=
  (u.otpHash, u.otpPurpose, u.otpExpiresAt)

/-- The write finds the slot as its handler had read it. -/
def Change.FindsSlot (c : Change) (row : Account) : Prop :=
  ∀ seen ∈ c.seen, row.slot = seen.slot

instance (c : Change) (row : Account) : Decidable (c.FindsSlot row) :=
  inferInstanceAs (Decidable (∀ seen ∈ c.seen, _))

/-- The event stored a code or a link of the account. -/
def AccountEvent.StoresOtp (userId : Uuid) (ev : AccountEvent) : Prop :=
  ∃ c ∈ ev.change?, c.userId = userId ∧ c.data.otpHash.join.isSome = true

instance (userId : Uuid) : DecidablePred (AccountEvent.StoresOtp userId) :=
  fun ev => inferInstanceAs (Decidable (∃ c ∈ ev.change?, _))

theorem AccountEvent.StoresOtp.writesOtp {userId : Uuid} {ev : AccountEvent}
    (h : ev.StoresOtp userId) : ev.WritesOtp userId := by
  obtain ⟨c, hc, hid, hstored⟩ := h
  refine ⟨c, hc, hid, ?_⟩
  cases hhash : c.data.otpHash with
  | none => simp [hhash] at hstored
  | some stored => rfl

/-- The position of the last write of the slot. What was there from the start has none. -/
def slotWrite (userId : Uuid) : AccountLog → Option ℕ
  | [] => none
  | e :: l => if e.event.WritesOtp userId then some l.length else slotWrite userId l

section SlotWrite

variable {userId : Uuid} {l l' k : AccountLog}
  {x : Entry AccountStore AccountEvent AccountRequest} {n : ℕ}

theorem slotWrite_lt (h : slotWrite userId l = some n) : n < l.length := by
  induction l with
  | nil => cases h
  | cons e l ih =>
    rw [slotWrite] at h
    rw [List.length_cons]
    split at h
    · obtain rfl := Option.some_inj.mp h
      exact Nat.lt_succ_self _
    · exact (ih h).trans (Nat.lt_succ_self _)

/-- A write comes no later than the last one. -/
theorem le_slotWrite (hx : (x :: k) <:+ l) (hwrites : x.event.WritesOtp userId) :
    ∃ n ∈ slotWrite userId l, k.length ≤ n := by
  induction l with
  | nil => cases List.suffix_nil.mp hx
  | cons e l ih =>
    rcases List.suffix_cons_iff.mp hx with hnew | hold
    · obtain ⟨rfl, rfl⟩ := List.cons.inj hnew
      exact ⟨k.length, by simp [slotWrite, hwrites], Nat.le_refl _⟩
    · obtain ⟨n, hn, hle⟩ := ih hold
      rw [slotWrite]
      split
      · have hlong := hold.length_le
        rw [List.length_cons] at hlong
        exact ⟨l.length, rfl, by omega⟩
      · exact ⟨n, hn, hle⟩

/-- The last write is the same while nothing is written. -/
theorem slotWrite_kept (hl : l <:+ l')
    (hnone : ∀ x j, l <:+ j → (x :: j) <:+ l' → ¬ x.event.WritesOtp userId) :
    slotWrite userId l' = slotWrite userId l := by
  induction l' with
  | nil => rw [List.suffix_nil.mp hl]
  | cons e l' ih =>
    rcases List.suffix_cons_iff.mp hl with rfl | hold
    · rfl
    · have hkept := ih hold fun x j hj hx => hnone x j hj (hx.trans (List.suffix_cons e l'))
      rw [slotWrite, if_neg (hnone e l' hold (List.suffix_refl _)), hkept]

end SlotWrite

/-! ### The law and its condition -/

/-- The process compared the code that this write had put into the slot. -/
def ComparedCode (a : Agent AccountRequest) (c : Change) (l : AccountLog) (written : Option ℕ) :
    Prop :=
  ∃ s k, (⟨a, .userRead c.seen, s⟩ :: k) <:+ l ∧ slotWrite c.userId k = written

/-- A confirmed code is the one that is stored at the commit, it was not confirmed before, and
whatever was stored until then, a code or a link, was not stored after it. -/
structure CodesConsumed (init : AccountStore) (log : AccountLog) : Prop where
  current : EveryEntry (fun e l => ∀ c ∈ e.event.change?, c.kind.confirmed?.isSome = true →
    ∀ row ∈ (stateOf init l).user? c.userId, c.FindsSlot row) log
  once : EveryEntry (fun e l => ∀ c ∈ e.event.change?, c.kind.confirmed?.isSome = true →
    EveryEntry (fun x j => ∀ d ∈ x.event.change?, d.kind.confirmed?.isSome = true →
      d.userId = c.userId → ∀ written, ComparedCode x.agent d j written →
        ¬ ComparedCode e.agent c l written) l) log
  latest : EveryEntry (fun e l => ∀ c ∈ e.event.change?, c.kind.confirmed?.isSome = true →
    ∀ written, ComparedCode e.agent c l written →
      EveryEntry (fun m k => m.event.StoresOtp c.userId → ∃ n ∈ written, k.length ≤ n) l) log

/-- No write of the slot comes between the comparison of a code and the commit that it leads
to. -/
def CodesUndisturbed (log : AccountLog) : Prop :=
  EveryEntry (fun e l => ∀ c ∈ e.event.change?, c.kind.confirmed?.isSome = true →
    Undisturbed (fun ev => ev = .userRead c.seen) (fun x _ => x.event.WritesOtp c.userId) e.agent
      l) log

/-- A confirmation clears the slot, and the slot that it had read was not empty. -/
theorem Justified.clears {env : AccountEnv} {a : Agent AccountRequest} {w : AccountWorld}
    {row : Account} {c : Change} (h : Justified env a w row c)
    (hkind : c.kind.confirmed?.isSome = true) :
    c.data.otpHash = some none ∧ ∃ user, c.seen = some user ∧ user.otpHash ≠ none := by
  cases h with
  | phoneVerified user otp number checkedAt t _ hvalid =>
    refine ⟨rfl, user, rfl, fun hnone => ?_⟩
    simp [isVerifiable, hnone] at hvalid
  | _ => cases hkind

section

variable {env : AccountEnv} {init : AccountStore} {σ : AccountConfig} {l l' j k : AccountLog}
  {e x y : Entry AccountStore AccountEvent AccountRequest} {userId : Uuid} {row : Account}
  {c d : Change}

/-- A slot that nobody writes stays as it is. -/
theorem AccountsRunTo.slot_kept (h : AccountsRunTo env init σ) (hl : l <:+ l')
    (hl' : l' <:+ σ.world.log) (hrow : (stateOf init l).user? userId = some row)
    (hnone : ∀ x j, l <:+ j → (x :: j) <:+ l' → ¬ x.event.WritesOtp userId) :
    ∃ r, (stateOf init l').user? userId = some r ∧ r.slot = row.slot := by
  refine h.column_kept hl hl' hrow ?_
  rintro e k c r hk hek hev rfl hr -
  obtain ⟨w, found, rfl, -, -, hjustified, -⟩ := h.of_changed (hek.trans hl') hev
  have hhash : c.data.otpHash = none := by
    by_contra hsome
    exact hnone e w.log hk hek
      ⟨c, change?_eq_some.mpr hev, rfl, Option.isSome_iff_ne_none.mpr hsome⟩
  obtain ⟨hpurpose, hexpires⟩ := hjustified.otp_kept hhash
  simp [Account.slot, hhash, hpurpose, hexpires]

/-- A slot that was cleared stays empty until something is stored. -/
theorem AccountsRunTo.slot_empty (h : AccountsRunTo env init σ) (hx : (x :: j) <:+ l)
    (hl : l <:+ σ.world.log) (hwrites : x.event.WritesOtp userId)
    (hnone : ∀ m k, j <:+ k → (m :: k) <:+ l → ¬ m.event.StoresOtp userId) :
    ∃ r, (stateOf init l).user? userId = some r ∧ r.otpHash = none := by
  -- a write that stores nothing leaves an empty slot, or clears it
  have hclears : ∀ m k c r, j <:+ k → (m :: k) <:+ l → m.event = .changed c → c.userId = userId →
      r.otpHash = none ∨ c.data.otpHash.isSome = true → (c.data.apply r).otpHash = none := by
    rintro m k c r hk hm hev rfl hcase
    rw [AccountUpdateInput.otpHash_apply]
    cases hhash : c.data.otpHash with
    | none =>
      rcases hcase with hempty | hsome
      · exact hempty
      · simp [hhash] at hsome
    | some stored =>
      cases stored with
      | none => rfl
      | some hash =>
        refine absurd ?_ (hnone m k hk hm)
        exact ⟨c, change?_eq_some.mpr hev, rfl, by simp [hhash]⟩
  refine stateOf_persists (P := fun s : AccountStore => ∃ r, s.user? userId = some r ∧
    r.otpHash = none) hx ?_ ?_
  · obtain ⟨c, hc, rfl, hsome⟩ := hwrites
    have hev := change?_eq_some.mp hc
    obtain ⟨w, found, rfl, -, hafter, -, -⟩ := h.of_changed (hx.trans hl) hev
    exact ⟨_, hafter, hclears x _ c found (List.suffix_refl _) hx hev rfl (.inr hsome)⟩
  · rintro m k hk hm ⟨r, hr, hempty⟩
    rcases h.row_after (hm.trans hl) hr with hkept | ⟨c, hev, hid, hafter⟩
    · exact ⟨r, hkept, hempty⟩
    · have hjk := (List.suffix_cons x j).trans hk
      exact ⟨_, hafter, hclears m k c r hjk hm hev hid (.inl hempty)⟩

/-- What a confirmation has read. -/
theorem AccountsRunTo.of_confirmed (h : AccountsRunTo env init σ) (hl : (e :: l) <:+ σ.world.log)
    (hev : e.event = .changed c) (hkind : c.kind.confirmed?.isSome = true) :
    c.data.otpHash = some none ∧ ∃ user, c.seen = some user ∧ user.otpHash ≠ none ∧
      user.id = c.userId ∧ ∃ s k, (⟨e.agent, .userRead c.seen, s⟩ :: k) <:+ l := by
  obtain ⟨w, found, rfl, -, -, hjustified, -⟩ := h.of_changed hl hev
  obtain ⟨hhash, user, hseen, hstored⟩ := hjustified.clears hkind
  obtain ⟨⟨s, k, hk⟩, hid⟩ := hjustified.seen hseen
  exact ⟨hhash, user, hseen, hstored, hid, s, k, by rw [hseen]; exact hk⟩

/-- The code that an undisturbed confirmation compared was the last write before the commit. -/
theorem ComparedCode.eq_slotWrite {a : Agent AccountRequest} {written : Option ℕ}
    (h : ComparedCode a c l written)
    (hquiet : Undisturbed (fun ev => ev = .userRead c.seen)
      (fun x _ => x.event.WritesOtp c.userId) a l) : slotWrite c.userId l = written := by
  obtain ⟨s, k, hk, rfl⟩ := h
  refine slotWrite_kept ((List.suffix_cons _ k).trans hk) fun x j hj hx => ?_
  rcases eq_or_ne k j with rfl | hne
  · -- the read itself writes nothing
    obtain ⟨rfl, -⟩ := eq_of_length_eq hx hk rfl
    rintro ⟨d, hd, -⟩
    cases hd
  · have hlt : k.length < j.length := by
      have hle := hj.length_le
      have hne' : k.length ≠ j.length := fun heq => hne (hj.eq_of_length heq)
      omega
    have hread := before_of_length_lt hk hx hlt
    have hnot : ¬ x.event.WritesOtp c.userId := hquiet.not_after hread hx rfl rfl
    exact hnot

/-- Under the law, nothing writes the slot between the comparison of a code and its commit: what
was stored would be cleared, and without it the commit would find an empty slot. -/
theorem AccountsRunTo.not_writesOtp_of_consumed (h : AccountsRunTo env init σ)
    (hconsumed : CodesConsumed init σ.world.log) (hl : (e :: l) <:+ σ.world.log)
    (hc : c ∈ e.event.change?) (hkind : c.kind.confirmed?.isSome = true) (hx : (x :: j) <:+ l)
    (hy : y ∈ j) (hagent : y.agent = e.agent) (hread : y.event = .userRead c.seen) :
    ¬ x.event.WritesOtp c.userId := by
  intro hwrites
  have hev := change?_eq_some.mp hc
  have hlog := (List.suffix_cons e l).trans hl
  obtain ⟨i, hi⟩ := exists_suffix_of_mem hy
  obtain ⟨b, ev, s⟩ := y
  obtain rfl : b = e.agent := hagent
  obtain rfl : ev = .userRead c.seen := hread
  have hcompared : ComparedCode e.agent c l (slotWrite c.userId i) :=
    ⟨s, i, hi.trans ((List.suffix_cons x j).trans hx), rfl⟩
  have hlatest := everyEntry_iff.mp (everyEntry_iff.mp hconsumed.latest e l hl c hc hkind _
    hcompared)
  have hnothing : ∀ m k, j <:+ k → (m :: k) <:+ l → ¬ m.event.StoresOtp c.userId := by
    intro m k hk hm hstores
    obtain ⟨n, hn, hle⟩ := hlatest m k hm hstores
    have hbefore := slotWrite_lt hn
    have hread := length_lt_of_before hi
    have hlong := hk.length_le
    omega
  obtain ⟨row, hrow, hempty⟩ := h.slot_empty hx hlog hwrites hnothing
  obtain ⟨-, user, hseen, hstored, -⟩ := h.of_confirmed hl hev hkind
  have hcurrent := everyEntry_iff.mp hconsumed.current e l hl c hc hkind row hrow user hseen
  have hhash : row.otpHash = user.otpHash := congrArg Prod.fst hcurrent
  exact hstored (hhash.symm.trans hempty)

/-- An undisturbed confirmation finds the code that it compared. -/
theorem AccountsRunTo.findsSlot (h : AccountsRunTo env init σ)
    (hundisturbed : CodesUndisturbed σ.world.log) (hl : (e :: l) <:+ σ.world.log)
    (hc : c ∈ e.event.change?) (hkind : c.kind.confirmed?.isSome = true)
    (hrow : (stateOf init l).user? c.userId = some row) : c.FindsSlot row := by
  intro seen hseen
  have hlog := (List.suffix_cons e l).trans hl
  obtain ⟨-, user, huser, -, hid, s, k, hk⟩ := h.of_confirmed hl (change?_eq_some.mp hc) hkind
  obtain rfl : user = seen := Option.some_inj.mp (huser.symm.trans hseen)
  have hread := h.user?_of_found (u := user) (hk.trans hlog) (by rw [huser])
  rw [hid] at hread
  have hquiet := everyEntry_iff.mp hundisturbed e l hl c hc hkind
  obtain ⟨r, hr, hslot⟩ := h.slot_kept hk hlog hread fun x j hj hx =>
    hquiet.not_after hj hx rfl rfl
  obtain rfl : row = r := Option.some_inj.mp (hrow.symm.trans hr)
  exact hslot

/-- Two undisturbed confirmations compare different codes: the first one wrote the slot after the
code that it compared. -/
theorem AccountsRunTo.compared_once (h : AccountsRunTo env init σ)
    (hundisturbed : CodesUndisturbed σ.world.log) (hl : (e :: l) <:+ σ.world.log)
    (hc : c ∈ e.event.change?) (hkind : c.kind.confirmed?.isSome = true) (hx : (x :: j) <:+ l)
    (hd : d ∈ x.event.change?) (hkind' : d.kind.confirmed?.isSome = true)
    (hid : d.userId = c.userId) {written : Option ℕ} (hfirst : ComparedCode x.agent d j written) :
    ¬ ComparedCode e.agent c l written := by
  intro hsecond
  have hxl := hx.trans ((List.suffix_cons e l).trans hl)
  have hthen := hfirst.eq_slotWrite (everyEntry_iff.mp hundisturbed x j hxl d hd hkind')
  have hnow := hsecond.eq_slotWrite (everyEntry_iff.mp hundisturbed e l hl c hc hkind)
  obtain ⟨hcleared, -⟩ := h.of_confirmed hxl (change?_eq_some.mp hd) hkind'
  obtain ⟨n, hn, hle⟩ := le_slotWrite hx ⟨d, hd, hid, by rw [hcleared]; rfl⟩
  rw [hnow, ← hthen, hid] at hn
  have hlt := slotWrite_lt hn
  omega

end

/-- Confirmations touch only the code that they compared exactly when nothing writes the slot
between the comparison and the commit. -/
theorem codesConsumed_iff {env : AccountEnv} {init : AccountStore} {σ : AccountConfig}
    (h : AccountsRunTo env init σ) :
    CodesConsumed init σ.world.log ↔ CodesUndisturbed σ.world.log := by
  constructor
  · intro hconsumed
    refine everyEntry_iff.mpr fun e l hl c hc hkind => everyEntry_iff.mpr ?_
    intro x j hx hwrites y hy hagent hread
    exact h.not_writesOtp_of_consumed hconsumed hl hc hkind hx hy hagent hread hwrites
  · intro hundisturbed
    constructor
    · refine everyEntry_iff.mpr fun e l hl c hc hkind row hrow => ?_
      exact h.findsSlot hundisturbed hl hc hkind hrow
    · refine everyEntry_iff.mpr fun e l hl c hc hkind => everyEntry_iff.mpr ?_
      intro x j hx d hd hkind' hid written hfirst hsecond
      exact h.compared_once hundisturbed hl hc hkind hx hd hkind' hid hfirst hsecond
    · refine everyEntry_iff.mpr fun e l hl c hc hkind written hcompared => everyEntry_iff.mpr ?_
      intro m k hm hstores
      rw [← hcompared.eq_slotWrite (everyEntry_iff.mp hundisturbed e l hl c hc hkind)]
      exact le_slotWrite hm hstores.writesOtp

/-- A code is texted to Ann and submitted twice at once. -/
def confirmTwice : List (Order AccountRequest) :=
  [.serve 1 (.requestPhoneVerification "ann" "secret" "+1" "42" true), .proceed 1, .proceed 1,
    .proceed 1, .serve 2 (.verifyAndUpdatePhoneNumber "ann" "42" "+1"), .proceed 2,
    .serve 3 (.verifyAndUpdatePhoneNumber "ann" "42" "+1"), .proceed 3, .proceed 2, .proceed 3]

theorem codesConsumed_iff_confirmTwice :
    CodesConsumed (Sample.accountStore Sample.ann)
        (Sample.performAccounts Sample.ann 5000 confirmTwice).world.log ↔
      CodesUndisturbed (Sample.performAccounts Sample.ann 5000 confirmTwice).world.log :=
  codesConsumed_iff (Sample.accountsRunTo _ _ _ (by simp [Sample.ann, Sample.user]) rfl)

/-- Both submissions are accepted. -/
theorem not_codesConsumed_confirmTwice :
    AccountsRunTo Sample.accountEnv (Sample.accountStore Sample.ann)
        (Sample.performAccounts Sample.ann 5000 confirmTwice) ∧
      ¬ CodesConsumed (Sample.accountStore Sample.ann)
        (Sample.performAccounts Sample.ann 5000 confirmTwice).world.log :=
  ⟨Sample.accountsRunTo _ _ _ (by simp [Sample.ann, Sample.user]) rfl,
    fun h => absurd h.current (by decide +kernel)⟩

end NestApi
