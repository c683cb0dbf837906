import NestApi.Accounts.Judgement
import NestApi.Accounts.Once
import NestApi.Properties.Runs

/-!
# Runs of the account system

A run starts from any store whose names were drawn by nobody, with every outstanding reset link
among them. What a column of an account holds later is what its last write left there, and the
cutoff only moves forward.
-/

namespace NestApi

open Txn Accounts AccountEvent

/-- No request has arrived yet. -/
def startAccounts (init : AccountStore) (now : ℕ)
    (ids : Table (Prod.fst : Uuid × Option ℕ → Uuid)) : AccountConfig := Config.start init now ids

/-- The account can be reset with this token, by the stored hash. -/
def Account.HoldsLink (env : AccountEnv) (token : String) (u : Account) : Prop :=
  u.otpHash = some (env.hashOpaqueToken token) ∧ u.otpPurpose = some .passwordReset

instance (env : AccountEnv) (token : String) (u : Account) : Decidable (u.HoldsLink env token) :=
  inferInstanceAs (Decidable (_ ∧ _))

/-- A store to start from, with the names drawn so far. -/
structure AccountStart (env : AccountEnv) (init : AccountStore) (now : ℕ)
    (ids : Table (Prod.fst : Uuid × Option ℕ → Uuid)) : Prop where
  inv : AccountInv ⟨init, [], now, ids⟩
  unowned : ∀ r ∈ ids, r.2 = none
  links : ∀ userId u token, init.user? userId = some u → u.HoldsLink env token →
    ids.find? token ≠ none

/-- `σ` is reached from `init`, whatever requests arrive. -/
def AccountsRunTo (env : AccountEnv) (init : AccountStore) (σ : AccountConfig) : Prop :=
  ∃ now ids, AccountStart env init now ids ∧
    Config.Reaches (accountBody env) (fun _ => True) (startAccounts init now ids) σ

section Runs

variable {env : AccountEnv} {init : AccountStore} {σ : AccountConfig} {l l' k : AccountLog}
  {e x : Entry AccountStore AccountEvent AccountRequest} {userId : Uuid} {u row : Account}
  {c : Change}

/-- Every entry is a step, in a world with the history before it that the run goes on from. -/
theorem AccountsRunTo.entry (h : AccountsRunTo env init σ) (hl : (e :: l) <:+ σ.world.log) :
    ∃ (w : AccountWorld) (L : RowLock → Prop), w.log = l ∧ w.init = init ∧ AccountInv w ∧
      AccountStep env e.agent L w e.event e.db ∧ Moves (accountGuarantee env) w σ.world := by
  obtain ⟨now, ids, hstart, hreach⟩ := h
  obtain ⟨hmoves, -, -⟩ := (accountProtocol env).refines
    (accountBody_admitted env _) hstart.inv hreach
  exact (accountProtocol env).entry hstart.inv hmoves hl

/-- A process writes an account once. -/
theorem AccountsRunTo.changed_once (h : AccountsRunTo env init σ) (hl : (e :: l) <:+ σ.world.log)
    (hk : (x :: k) <:+ σ.world.log) (hpid : x.agent.pid = e.agent.pid) (he : IsChange e.event)
    (hx : IsChange x.event) : e = x ∧ l = k := by
  obtain ⟨now, ids, -, hreach⟩ := h
  have hcounted : Config.Counted IsChange (fun _ => 1) σ :=
    Config.reaches_counted (accountBody_once env) hreach
  obtain ⟨proc, hproc, hreq⟩ := hcounted.served e (hl.subset List.mem_cons_self)
  obtain ⟨proc', hproc', hreq'⟩ := hcounted.served x (hk.subset List.mem_cons_self)
  have hagent : x.agent = e.agent := by
    obtain ⟨⟨p, r⟩, _, _⟩ := e
    obtain ⟨⟨p', r'⟩, _, _⟩ := x
    obtain rfl : p' = p := hpid
    obtain rfl : proc = proc' := Option.some_inj.mp (hproc.symm.trans hproc')
    simp only at hreq hreq'
    rw [← hreq, ← hreq']
  exact hcounted.eq_of_agent hl hk hagent (Nat.le_refl _) he hx

/-! ### One account in a run -/

/-- A write finds a row, and leaves it written. -/
theorem AccountsRunTo.of_changed (h : AccountsRunTo env init σ) (hl : (e :: l) <:+ σ.world.log)
    (hev : e.event = .changed c) :
    ∃ (w : AccountWorld) (row : Account), w.log = l ∧ (stateOf init l).user? c.userId = some row ∧
      e.db.user? c.userId = some (c.data.apply row) ∧ Justified env e.agent w row c ∧
        Moves (accountGuarantee env) w σ.world := by
  obtain ⟨w, L, rfl, rfl, hinv, hstep, hmoves⟩ := h.entry hl
  obtain ⟨b, ev, s⟩ := e
  obtain rfl : ev = .changed c := hev
  obtain ⟨row, hbefore, hafter, hjustified⟩ := hstep.of_changed
  exact ⟨w, row, rfl, hbefore, hafter, hjustified, hmoves⟩

/-- The same of the row that is known to be there. -/
theorem AccountsRunTo.of_changed_row (h : AccountsRunTo env init σ)
    (hl : (e :: l) <:+ σ.world.log) (hev : e.event = .changed c)
    (hrow : (stateOf init l).user? c.userId = some row) :
    e.db.user? c.userId = some (c.data.apply row) ∧
      ∃ w : AccountWorld, Justified env e.agent w row c := by
  obtain ⟨w, found, -, hfound, hafter, hjustified, -⟩ := h.of_changed hl hev
  obtain rfl : row = found := Option.some_inj.mp (hrow.symm.trans hfound)
  exact ⟨hafter, w, hjustified⟩

/-- The row that was found is the row of the state. -/
theorem AccountsRunTo.of_found (h : AccountsRunTo env init σ) (hl : (e :: l) <:+ σ.world.log)
    (hev : e.event = .userRead (some u)) :
    (stateOf init l).user? u.id = some u ∧ e.db = stateOf init l := by
  obtain ⟨w, L, rfl, rfl, hinv, hstep, -⟩ := h.entry hl
  obtain ⟨b, ev, s⟩ := e
  obtain rfl : ev = .userRead (some u) := hev
  cases hstep with
  | userRead _ hfound => exact ⟨hfound u rfl, rfl⟩

/-- The row is still there after the lookup. -/
theorem AccountsRunTo.user?_of_found (h : AccountsRunTo env init σ)
    (hl : (e :: l) <:+ σ.world.log) (hev : e.event = .userRead (some u)) :
    (stateOf init (e :: l)).user? u.id = some u := by
  obtain ⟨hfound, hkept⟩ := h.of_found hl hev
  rw [stateOf, hkept]
  exact hfound

/-- A row of the state was there before the last entry, was written by it, or is new. -/
theorem AccountsRunTo.row_of (h : AccountsRunTo env init σ) (hl : (e :: l) <:+ σ.world.log)
    (hafter : e.db.user? userId = some u) :
    (stateOf init l).user? userId = some u ∨
      (∃ c row, e.event = .changed c ∧ c.userId = userId ∧
        (stateOf init l).user? userId = some row ∧ u = c.data.apply row) ∨
          ((stateOf init l).user? userId = none ∧ ∃ now, u.IsNew now) := by
  obtain ⟨w, L, rfl, rfl, hinv, hstep, -⟩ := h.entry hl
  rcases hstep.user?_after hafter with hold | ⟨c, row, hev, hid, hbefore, hu, -⟩ |
    ⟨-, hnone, hnew⟩
  · exact .inl hold
  · exact .inr (.inl ⟨c, row, hev, hid, hbefore, hu⟩)
  · exact .inr (.inr ⟨hnone, w.now, hnew⟩)

/-- Accounts stay, and a row changes by writes only. -/
theorem AccountsRunTo.row_after (h : AccountsRunTo env init σ) (hl : (e :: l) <:+ σ.world.log)
    (hbefore : (stateOf init l).user? userId = some row) :
    e.db.user? userId = some row ∨
      ∃ c, e.event = .changed c ∧ c.userId = userId ∧
        e.db.user? userId = some (c.data.apply row) := by
  obtain ⟨w, L, rfl, rfl, hinv, hstep, -⟩ := h.entry hl
  rcases hstep.user?_before hbefore with hkept | ⟨c, hev, hid, hafter, -, -⟩
  · exact .inl hkept
  · exact .inr ⟨c, hev, hid, hafter⟩

/-- A column of an account holds what it held, when no write in between changed it. -/
theorem AccountsRunTo.column_kept {γ : Type} {f : Account → γ} (h : AccountsRunTo env init σ)
    (hl : l <:+ l') (hl' : l' <:+ σ.world.log) (hrow : (stateOf init l).user? userId = some row)
    (hkeep : ∀ e k c r, l <:+ k → (e :: k) <:+ l' → e.event = .changed c → c.userId = userId →
      (stateOf init k).user? userId = some r → f r = f row → f (c.data.apply r) = f r) :
    ∃ r, (stateOf init l').user? userId = some r ∧ f r = f row := by
  refine stateOf_persists (P := fun s : AccountStore => ∃ r, s.user? userId = some r ∧
    f r = f row) hl ⟨row, hrow, rfl⟩ ?_
  rintro e k hlk hek ⟨r, hr, hf⟩
  rcases h.row_after (hek.trans hl') hr with hkept | ⟨c, hev, hid, hafter⟩
  · exact ⟨r, hkept, hf⟩
  · exact ⟨_, hafter, (hkeep e k c r hlk hek hev hid hr hf).trans hf⟩

/-! ### The cutoff -/

/-- The event ended every session of the account, at this cutoff. -/
def AccountEvent.cutoffOf? (userId : Uuid) (ev : AccountEvent) : Option ℕ :=
  (ev.change?.filter fun c => c.userId = userId).bind fun c => c.data.passwordChangedAt.join

theorem cutoffOf?_eq_some {ev : AccountEvent} {cutoff : ℕ} :
    ev.cutoffOf? userId = some cutoff ↔ ∃ c, ev = .changed c ∧ c.userId = userId ∧
      c.data.passwordChangedAt = some (some cutoff) := by
  constructor
  · intro h
    obtain ⟨c, hc, hcutoff⟩ := Option.bind_eq_some_iff.mp h
    obtain ⟨hev, hid⟩ := Option.filter_eq_some_iff.mp hc
    exact ⟨c, change?_eq_some.mp hev, by simpa using hid, Option.join_eq_some_iff.mp hcutoff⟩
  · rintro ⟨c, rfl, rfl, hcutoff⟩
    simp [cutoffOf?, AccountEvent.change?, Option.filter, hcutoff]

/-- The cutoff of an account is at least this. -/
def AccountStore.CutoffFrom (s : AccountStore) (userId : Uuid) (cutoff : ℕ) : Prop :=
  ∃ r, s.user? userId = some r ∧ ∃ c ∈ r.passwordChangedAt, cutoff ≤ c

/-- The cutoff only moves forward. -/
theorem AccountsRunTo.cutoffFrom_mono (h : AccountsRunTo env init σ) {cutoff : ℕ} (hl : l <:+ l')
    (hl' : l' <:+ σ.world.log) (hfrom : (stateOf init l).CutoffFrom userId cutoff) :
    (stateOf init l').CutoffFrom userId cutoff := by
  refine stateOf_persists (P := fun s : AccountStore => s.CutoffFrom userId cutoff) hl hfrom ?_
  rintro e k _ hek ⟨r, hr, old, hold, hle⟩
  obtain ⟨w, L, rfl, rfl, hinv, hstep, -⟩ := h.entry (hek.trans hl')
  rcases hstep.user?_before hr with hkept | ⟨c, -, -, hafter, -, hjustified⟩
  · exact ⟨r, hkept, old, hold, hle⟩
  · refine ⟨_, hafter, ?_⟩
    rw [AccountUpdateInput.passwordChangedAt_apply]
    rcases hjustified.cutoff with hnone | ⟨t, -, hwritten, hbound⟩
    · exact ⟨old, by simpa [hnone] using hold, hle⟩
    · exact ⟨nextWholeSecond t, by simp [hwritten], hle.trans (hbound old hold)⟩

/-- The end of the sessions moves the cutoff to the one that it reports. -/
theorem AccountsRunTo.cutoffFrom_of (h : AccountsRunTo env init σ) {cutoff : ℕ}
    (hl : (e :: l) <:+ σ.world.log) (hev : e.event.cutoffOf? userId = some cutoff) :
    e.db.CutoffFrom userId cutoff := by
  obtain ⟨c, hchange, rfl, hcutoff⟩ := cutoffOf?_eq_some.mp hev
  obtain ⟨w, row, -, -, hafter, -, -⟩ := h.of_changed hl hchange
  refine ⟨_, hafter, cutoff, ?_, Nat.le_refl _⟩
  simp [hcutoff]

end Runs

/-! ### A small store -/

namespace Sample

/-- A link is the address that it is for. Ann has one address, all others are those of the
first account that a run creates. -/
def accountEnv : AccountEnv where
  toEnv := env
  fixedPhoneCode := none
  jwtSign payload _ := payload.email.getD ""
  jwtVerify token _ :=
    some ⟨some (if token = "ann@a" then "ann" else "#ii"), some "email_verify", some token⟩

/-- The account of Ann, who signs in with `secret`. -/
def ann : Account where
  toUser := { user "ann" with email := "ann@a", password := "secret" }
  firstName := "Ann"
  middleName := none
  lastName := "Ash"
  phoneNumber := none
  phoneNumberVerifiedAt := none
  gender := none
  birthday := none
  timezone := none
  profileImageFileAssetId := none

/-- A store with one account. -/
def accountStore (u : Account) : AccountStore where
  users := Table.empty.insert u
  refreshTokens := .empty
  auditLogs := .empty
  oauthSessions := .empty
  oauthCredentials := .empty
  oauthAccessTokens := .empty

/-- Its name. -/
def accountNames (u : Account) : Table (Prod.fst : Uuid × Option ℕ → Uuid) :=
  Table.empty.insert (u.id, none)

/-- Carry out a schedule over it. -/
def performAccounts (u : Account) (now : ℕ) (orders : List (Order AccountRequest)) :
    AccountConfig :=
  (startAccounts (accountStore u) now (accountNames u)).performAll (accountBody accountEnv) name 80
    orders

theorem user?_accountStore {u v : Account} {userId : Uuid}
    (h : (accountStore u).user? userId = some v) : v = u := by
  have hmem : v ∈ (accountStore u).users := Table.mem_of_find? h
  rcases Table.mem_of_mem_insert hmem with hold | rfl
  · exact absurd hold Table.not_mem_empty
  · rfl

theorem accountsRunTo (u : Account) (now : ℕ) (orders : List (Order AccountRequest))
    (hcutoff : ∀ c ∈ u.passwordChangedAt, c ≤ now) (hlink : u.otpHash = none) :
    AccountsRunTo accountEnv (accountStore u) (performAccounts u now orders) := by
  refine ⟨now, accountNames u, ⟨⟨?_, ?_, ?_⟩, ?_, ?_⟩, Config.reaches_performAll (by simp)⟩
  · intro userId v hv cutoff hcutoff'
    obtain rfl := user?_accountStore hv
    exact (hcutoff cutoff hcutoff').trans (le_nextWholeSecond _)
  · rintro x (⟨v, hv, rfl⟩ | ⟨session, hsession, -⟩)
    · obtain rfl := user?_accountStore (AccountStore.user?_eq_some.mpr ⟨hv, rfl⟩)
      simp [accountNames, Table.insert, Table.empty, Table.find?]
    · exact absurd hsession Table.not_mem_empty
  · intro code hcode
    exact absurd hcode Table.not_mem_empty
  · intro r hr
    rcases Table.mem_of_mem_insert hr with hold | rfl
    · exact absurd hold Table.not_mem_empty
    · rfl
  · intro userId v token hv hholds
    obtain rfl := user?_accountStore hv
    simp [Account.HoldsLink, hlink] at hholds

end Sample

end NestApi
