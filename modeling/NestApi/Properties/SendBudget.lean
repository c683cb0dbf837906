import NestApi.SendLimit.DestinationSendLimit

/-!
# What a send limit counts

The counter of a window is the number of attempts that it counted less the number of
reservations that were given back in it. Refused attempts are counted too, and nothing gives
their unit back.
-/

namespace NestApi

/-- The attempt was sent, or may still be, or has not given its unit back yet. -/
def SendStatus.occupies : SendStatus → Bool
  | .inFlight | .succeeded | .failed => true
  | .refused | .unanswered | .released _ | .unreleased => false

namespace SendState

/-- The attempts of a window that were sent or are in flight. -/
def occupied (s : SendState) (key : String) (w : ℕ) : ℕ :=
  s.attempts.countP fun a => a.key = key ∧ a.window = w ∧ a.status.occupies

/-- The attempts that a window refused. -/
def refused (s : SendState) (key : String) (w : ℕ) : ℕ :=
  s.attempts.countP fun a => a.key = key ∧ a.window = w ∧ a.status = .refused

/-- The releases that landed in a window, of reservations of earlier ones. -/
def carriedOver (s : SendState) (key : String) (w : ℕ) : ℕ :=
  s.attempts.countP fun a => a.key = key ∧ a.window < w ∧ a.status = .released (some w)

/-- The releases that landed in a window, of its own reservations. -/
def takenBack (s : SendState) (key : String) (w : ℕ) : ℕ :=
  s.attempts.countP fun a => a.key = key ∧ a.window = w ∧ a.status = .released (some w)

/-- The attempts that a window counted. -/
def taken (s : SendState) (key : String) (w : ℕ) : ℕ :=
  s.attempts.countP fun a => a.key = key ∧ a.window = w

/-- The releases that landed in a window. -/
def givenBack (s : SendState) (key : String) (w : ℕ) : ℕ :=
  s.attempts.countP fun a => a.key = key ∧ a.status = .released (some w)

end SendState

/-! ### Counting -/

section Counting

variable {α : Type} {l : List α} {p q r : α → Bool}

theorem countP_le_add (h : ∀ a ∈ l, p a → q a ∨ r a) :
    l.countP p ≤ l.countP q + l.countP r := by
  induction l with
  | nil => simp
  | cons a l ih =>
    have hrest := ih fun b hb => h b (List.mem_cons_of_mem _ hb)
    have hfirst := h a List.mem_cons_self
    simp only [List.countP_cons]
    cases hp : p a <;> cases hq : q a <;> cases hr : r a <;> simp_all <;> omega

theorem add_countP_le (hp : ∀ a ∈ l, p a → r a) (hq : ∀ a ∈ l, q a → r a ∧ ¬ p a) :
    l.countP p + l.countP q ≤ l.countP r := by
  induction l with
  | nil => simp
  | cons a l ih =>
    have hrest := ih (fun b hb => hp b (List.mem_cons_of_mem _ hb)) fun b hb =>
      hq b (List.mem_cons_of_mem _ hb)
    have hpa := hp a List.mem_cons_self
    have hqa := hq a List.mem_cons_self
    simp only [List.countP_cons]
    cases hp' : p a <;> cases hq' : q a <;> cases hr : r a <;> simp_all <;> omega

end Counting

namespace SendState

variable {digest : String → String} {s t : SendState} {key : String} {w i : ℕ}

/-! ### What a step does -/

/-- An attempt that settles keeps its key and window. -/
theorem settle_cases {old : SendStatus} {new : SendAttempt → SendStatus}
    (h : s.settle i old new = some t) :
    ∃ before a after, s.attempts = before ++ a :: after ∧ s.attempts[i]? = some a ∧
      a.status = old ∧
      t = { s with attempts := before ++ { a with status := new a } :: after } := by
  simp only [settle, Option.bind_eq_bind, Option.bind_eq_some_iff, Option.ite_none_right_eq_some,
    Option.some.injEq] at h
  obtain ⟨a, ha, hold, rfl⟩ := h
  obtain ⟨hi, rfl⟩ := List.getElem?_eq_some_iff.mp ha
  refine ⟨s.attempts.take i, s.attempts[i], s.attempts.drop (i + 1), ?_, ha, hold, ?_⟩
  · rw [List.getElem_cons_drop, List.take_append_drop]
  · rw [List.set_eq_take_append_cons_drop, if_pos hi]

theorem runReleaseScript_attempts (key : String) :
    (s.runReleaseScript key).attempts = s.attempts := by
  unfold runReleaseScript
  split <;> rfl

theorem runReleaseScript_windows (key : String) :
    (s.runReleaseScript key).windows = s.windows := by
  unfold runReleaseScript
  split <;> rfl

/-- The counter that Redis shows is one that it holds. -/
theorem redis_of_get? {c : SendCounter} (h : s.get? key = some c) : s.redis key = some c :=
  (Option.filter_eq_some_iff.mp h).1

theorem windows_le_windowNow : s.windows key ≤ s.windowNow key := by
  unfold windowNow
  split <;> omega

/-! ### The invariant -/

/-- What holds of the counters and the attempts in every state. -/
structure Inv (digest : String → String) (s : SendState) : Prop where
  bounded : ∀ a ∈ s.attempts, a.window ≤ s.windows a.key
  landed : ∀ a ∈ s.attempts, ∀ w, a.status = .released (some w) →
    a.window ≤ w ∧ w ≤ s.windows a.key
  counted : ∀ key c, s.redis key = some c →
    c.count = s.taken key (s.windows key) - s.givenBack key (s.windows key)
  expires : ∀ key c, s.redis key = some c → ∃ time, c.expiresAt = some time
  limited : ∀ p d w, s.occupied (keyFor digest p d) w ≤
    (sendLimits p).limit + s.carriedOver (keyFor digest p d) w

theorem inv_initial : Inv digest initial := by
  constructor <;> simp [initial, occupied]

/-- A window that is not open yet has counted nothing. -/
theorem Inv.taken_eq_zero (h : Inv digest s) (key : String) (hw : s.windows key < w) :
    s.taken key w = 0 := by
  refine List.countP_eq_zero.mpr fun a ha => ?_
  have hbounded := h.bounded a ha
  simp only [decide_eq_true_eq, not_and]
  rintro rfl
  omega

theorem Inv.givenBack_eq_zero (h : Inv digest s) (key : String)
    (hw : s.windows key < w) : s.givenBack key w = 0 := by
  refine List.countP_eq_zero.mpr fun a ha => ?_
  simp only [decide_eq_true_eq, not_and]
  rintro rfl hstatus
  have hlanded := h.landed a ha w hstatus
  omega

/-- Every attempt in flight was counted, and so was every one that gave back in its window. -/
theorem occupied_add_takenBack_le (s : SendState) (key : String) (w : ℕ) :
    s.occupied key w + s.takenBack key w ≤ s.taken key w := by
  apply add_countP_le
  · intro a _ ha
    simp only [decide_eq_true_eq] at ha ⊢
    exact ⟨ha.1, ha.2.1⟩
  · intro a _ ha
    simp only [decide_eq_true_eq] at ha ⊢
    exact ⟨⟨ha.1, ha.2.1⟩, fun hocc => by simp [ha.2.2, SendStatus.occupies] at hocc⟩

/-- A release lands in the window of its reservation or in a later one. -/
theorem givenBack_le (key : String) (w : ℕ)
    (h : ∀ a ∈ s.attempts, ∀ w, a.status = .released (some w) → a.window ≤ w) :
    s.givenBack key w ≤ s.takenBack key w + s.carriedOver key w := by
  apply countP_le_add
  intro a hmem ha
  simp only [decide_eq_true_eq] at ha ⊢
  have hwindow := h a hmem w ha.2
  rcases Nat.eq_or_lt_of_le hwindow with heq | hlt
  · exact .inl ⟨ha.1, heq, ha.2⟩
  · exact .inr ⟨ha.1, hlt, ha.2⟩

/-- The attempts in flight are within the count, but for what earlier windows gave back. -/
theorem occupied_le (key : String) (w : ℕ) {c : ℤ}
    (hlanded : ∀ a ∈ s.attempts, ∀ w, a.status = .released (some w) → a.window ≤ w)
    (hcount : c = s.taken key w - s.givenBack key w) :
    (s.occupied key w : ℤ) ≤ c + s.carriedOver key w := by
  have hocc := occupied_add_takenBack_le s key w
  have hgiven := givenBack_le key w hlanded
  omega

/-! ### Attempts -/

section Counted

variable {counter : SendCounter} {status : SendStatus} {key' : String}

theorem taken_counted : (s.counted key' counter status).taken key w =
    s.taken key w + if key' = key ∧ s.windowNow key' = w then 1 else 0 := by
  simp [counted, taken, List.countP_append, List.countP_singleton]

theorem occupied_counted : (s.counted key' counter status).occupied key w =
    s.occupied key w +
      if key' = key ∧ s.windowNow key' = w ∧ status.occupies then 1 else 0 := by
  simp [counted, occupied, List.countP_append, List.countP_singleton]

theorem givenBack_counted (hstatus : ∀ w, status ≠ .released w) :
    (s.counted key' counter status).givenBack key w = s.givenBack key w := by
  simp [counted, givenBack, List.countP_append, hstatus]

theorem carriedOver_counted (hstatus : ∀ w, status ≠ .released w) :
    (s.counted key' counter status).carriedOver key w = s.carriedOver key w := by
  simp [counted, carriedOver, List.countP_append, hstatus]

theorem refused_counted : (s.counted key' counter status).refused key w =
    s.refused key w +
      if key' = key ∧ s.windowNow key' = w ∧ status = .refused then 1 else 0 := by
  simp [counted, refused, List.countP_append, List.countP_singleton]

theorem windows_counted : (s.counted key' counter status).windows key' = s.windowNow key' :=
  Function.update_self _ _ _

theorem windows_counted_of_ne (h : key ≠ key') :
    (s.counted key' counter status).windows key = s.windows key := Function.update_of_ne h _ _

theorem redis_counted : (s.counted key' counter status).redis key' = some counter :=
  Function.update_self _ _ _

theorem redis_counted_of_ne (h : key ≠ key') :
    (s.counted key' counter status).redis key = s.redis key := Function.update_of_ne h _ _

theorem windows_le_counted : s.windows key ≤ (s.counted key' counter status).windows key := by
  unfold counted
  by_cases hkey : key = key'
  · subst hkey
    simpa using windows_le_windowNow
  · simp [Function.update_of_ne hkey]

end Counted

/-- The counter after an attempt counts it in the window that it falls in. -/
theorem Inv.count_incrExpire (h : Inv digest s) (key : String) (seconds : ℕ) :
    (s.incrExpire key seconds).count =
      s.taken key (s.windowNow key) + 1 - s.givenBack key (s.windowNow key) := by
  unfold incrExpire windowNow
  cases hget : s.get? key with
  | none =>
    have htaken := h.taken_eq_zero key (w := s.windows key + 1) (by omega)
    have hgiven := h.givenBack_eq_zero key (w := s.windows key + 1) (by omega)
    simp [htaken, hgiven]
  | some c =>
    have hcount := h.counted key c (redis_of_get? hget)
    simp only [Option.elim_some, Option.isSome_some, if_true, hcount]
    omega

/-- An attempt keeps the invariant when it is refused at the limit. -/
theorem Inv.counted_step (h : Inv digest s) {p : SendPurpose} {d : String} {status : SendStatus}
    (hstatus : ∀ w, status ≠ .released w)
    (hlimit : status.occupies → ¬ SendAction.Refuses digest s p d) :
    Inv digest (s.counted (keyFor digest p d) (SendAction.counterAfter digest s p d) status) := by
  have hlanded : ∀ a ∈ s.attempts, ∀ w, a.status = .released (some w) → a.window ≤ w :=
    fun a ha w hw => (h.landed a ha w hw).1
  constructor
  · intro a ha
    rcases List.mem_append.mp ha with hold | hnew
    · exact Nat.le_trans (h.bounded a hold) windows_le_counted
    · obtain rfl := List.mem_singleton.mp hnew
      exact Nat.le_of_eq windows_counted.symm
  · intro a ha w hw
    rcases List.mem_append.mp ha with hold | hnew
    · obtain ⟨hle, hwindow⟩ := h.landed a hold w hw
      exact ⟨hle, Nat.le_trans hwindow windows_le_counted⟩
    · obtain rfl := List.mem_singleton.mp hnew
      exact absurd hw (hstatus _)
  · intro key c hc
    by_cases hkey : key = keyFor digest p d
    · subst hkey
      obtain rfl := Option.some.inj (redis_counted.symm.trans hc)
      rw [windows_counted, taken_counted, givenBack_counted hstatus, SendAction.counterAfter,
        h.count_incrExpire]
      simp
    · rw [windows_counted_of_ne hkey, taken_counted, givenBack_counted hstatus,
        if_neg (by tauto), Nat.add_zero]
      exact h.counted key c ((redis_counted_of_ne hkey).symm.trans hc)
  · intro key c hc
    by_cases hkey : key = keyFor digest p d
    · subst hkey
      obtain rfl := Option.some.inj (redis_counted.symm.trans hc)
      unfold SendAction.counterAfter incrExpire
      cases (s.get? (keyFor digest p d)).bind SendCounter.expiresAt with
      | none => exact ⟨_, rfl⟩
      | some time => exact ⟨time, rfl⟩
    · exact h.expires key c ((redis_counted_of_ne hkey).symm.trans hc)
  · intro q e w
    have hold := h.limited q e w
    rw [occupied_counted, carriedOver_counted hstatus]
    split
    · next hnew =>
      obtain ⟨hkey, rfl, hocc⟩ := hnew
      obtain rfl := keyFor_purpose hkey
      -- the attempt was let through, so the count with it is within the limit
      have hcount := h.count_incrExpire (keyFor digest p d) (sendLimits p).windowSeconds
      have hgrant := hlimit hocc
      simp only [SendAction.Refuses, SendAction.counterAfter, hcount] at hgrant
      have hbound := occupied_le (keyFor digest p e) (s.windowNow (keyFor digest p d)) hlanded rfl
      rw [← hkey] at hbound ⊢
      omega
    · omega

/-! ### Settling -/

section Settled

variable {before after : List SendAttempt} {a : SendAttempt} {status : SendStatus}

/-- The state after the attempt between `before` and `after` has a new status. -/
def settled (s : SendState) (before : List SendAttempt) (a : SendAttempt) (status : SendStatus)
    (after : List SendAttempt) : SendState :=
  { s with attempts := before ++ { a with status := status } :: after }

@[simp] theorem get?_settled : (s.settled before a status after).get? key = s.get? key := rfl

theorem taken_settled (key : String) (w : ℕ) (status : SendStatus)
    (h : s.attempts = before ++ a :: after) :
    (s.settled before a status after).taken key w = s.taken key w := by
  simp [settled, taken, h, List.countP_append, List.countP_cons]

theorem givenBack_settled (key : String) (w : ℕ) (status : SendStatus)
    (h : s.attempts = before ++ a :: after) (hocc : a.status.occupies) :
    (s.settled before a status after).givenBack key w = s.givenBack key w +
      if a.key = key ∧ status = .released (some w) then 1 else 0 := by
  have hold : a.status ≠ .released (some w) := by
    intro hstatus
    simp [hstatus, SendStatus.occupies] at hocc
  simp only [settled, givenBack, h, List.countP_append, List.countP_cons, hold, and_false,
    decide_false, Bool.false_eq_true, if_false, decide_eq_true_eq]
  omega

theorem occupied_settled_le (key : String) (w : ℕ) (status : SendStatus)
    (h : s.attempts = before ++ a :: after) (hocc : a.status.occupies) :
    (s.settled before a status after).occupied key w ≤ s.occupied key w := by
  simp only [settled, occupied, h, List.countP_append, List.countP_cons, hocc, and_true,
    decide_eq_true_eq]
  split_ifs <;> grind

theorem carriedOver_le_settled (key : String) (w : ℕ) (status : SendStatus)
    (h : s.attempts = before ++ a :: after) (hocc : a.status.occupies) :
    s.carriedOver key w ≤ (s.settled before a status after).carriedOver key w := by
  have hold : a.status ≠ .released (some w) := by
    intro hstatus
    simp [hstatus, SendStatus.occupies] at hocc
  simp only [settled, carriedOver, h, List.countP_append, List.countP_cons, hold, and_false,
    decide_false, Bool.false_eq_true, if_false]
  omega

/-- An attempt that settles keeps the invariant when the counter gives back what it does. -/
theorem Inv.settled (h : Inv digest s) (hattempts : s.attempts = before ++ a :: after)
    (hocc : a.status.occupies) {redis : String → Option SendCounter}
    (hwindow : ∀ w, status = .released (some w) → w = s.windows a.key)
    (hredis : ∀ key c, redis key = some c → ∃ c₀, s.redis key = some c₀ ∧
      c.expiresAt = c₀.expiresAt ∧ c.count = c₀.count -
        if a.key = key ∧ status = .released (some (s.windows key)) then 1 else 0) :
    Inv digest { s.settled before a status after with redis := redis } := by
  have hmem : ∀ b ∈ before ++ { a with status := status } :: after,
      b ∈ s.attempts ∨ b = { a with status := status } := by
    intro b hb
    rw [hattempts]
    simp only [List.mem_append, List.mem_cons] at hb ⊢
    tauto
  have ha : a ∈ s.attempts := hattempts ▸ List.mem_append_right _ List.mem_cons_self
  constructor
  · intro b hb
    rcases hmem b hb with hold | rfl
    · exact h.bounded b hold
    · exact h.bounded a ha
  · intro b hb w hw
    rcases hmem b hb with hold | rfl
    · exact h.landed b hold w hw
    · obtain rfl := hwindow w hw
      exact ⟨h.bounded a ha, Nat.le_refl _⟩
  · intro key c hc
    obtain ⟨c₀, hc₀, -, hcount⟩ := hredis key c hc
    have hbefore := h.counted key c₀ hc₀
    have htaken := taken_settled key (s.windows key) status hattempts
    have hgiven := givenBack_settled key (s.windows key) status hattempts hocc
    change c.count = (s.settled before a status after).taken key (s.windows key) -
      (s.settled before a status after).givenBack key (s.windows key)
    rw [htaken, hgiven, hcount, hbefore]
    split <;> omega
  · intro key c hc
    obtain ⟨c₀, hc₀, hexpires, -⟩ := hredis key c hc
    rw [hexpires]
    exact h.expires key c₀ hc₀
  · intro p d w
    have hlimit := h.limited p d w
    have hocc' := occupied_settled_le (keyFor digest p d) w status hattempts hocc
    have hover := carriedOver_le_settled (keyFor digest p d) w status hattempts hocc
    exact Nat.le_trans hocc' (Nat.le_trans hlimit (Nat.add_le_add_left hover _))

end Settled

/-- An attempt that settles without a release keeps the invariant. -/
theorem Inv.settle {old new : SendStatus} (h : Inv digest s) (hocc : old.occupies)
    (hnew : ∀ w, new ≠ .released w) (hsettle : s.settle i old (fun _ => new) = some t) :
    Inv digest t := by
  obtain ⟨before, a, after, hattempts, -, rfl, rfl⟩ := settle_cases hsettle
  apply h.settled hattempts hocc
  · exact fun w hw => absurd hw (hnew _)
  · intro key c hc
    exact ⟨c, hc, rfl, by simp [hnew]⟩

/-- A release keeps the invariant, whether it finds a window or not. -/
theorem Inv.release (h : Inv digest s)
    (hexec : SendAction.exec digest s (.release i) = some t) : Inv digest t := by
  simp only [SendAction.exec, Option.bind_eq_bind, Option.bind_eq_some_iff,
    Option.some.injEq] at hexec
  obtain ⟨a, ha, u, hsettle, rfl⟩ := hexec
  obtain ⟨before, b, after, hattempts, hb, hfailed, rfl⟩ := settle_cases hsettle
  obtain rfl := Option.some.inj (ha.symm.trans hb)
  have hocc : a.status.occupies := by rw [hfailed]; rfl
  cases hget : s.get? a.key with
  | none =>
    have hscript : runReleaseScript (s.settled before a (.released (s.releaseWindow a.key)) after)
        a.key = s.settled before a (.released none) after := by
      simp only [runReleaseScript, get?_settled, hget, releaseWindow, Option.map_none]
    have hkept : Inv digest { s.settled before a (.released none) after with redis := s.redis } :=
      h.settled hattempts hocc (by simp) fun key c hc => ⟨c, hc, rfl, by simp⟩
    exact hscript ▸ hkept
  | some c =>
    have hscript : runReleaseScript (s.settled before a (.released (s.releaseWindow a.key)) after)
        a.key = { s.settled before a (.released (some (s.windows a.key))) after with
          redis := Function.update s.redis a.key (some { c with count := c.count - 1 }) } := by
      simp only [runReleaseScript, get?_settled, hget, releaseWindow, Option.map_some]
      rfl
    refine hscript ▸ h.settled hattempts hocc (by simp) ?_
    intro key c' hc'
    by_cases hkey : key = a.key
    · subst hkey
      rw [Function.update_self] at hc'
      obtain rfl := Option.some.inj hc'
      exact ⟨c, redis_of_get? hget, rfl, by simp⟩
    · rw [Function.update_of_ne hkey] at hc'
      exact ⟨c', hc', rfl, by simp [Ne.symm hkey]⟩

/-- Every action keeps the invariant. -/
theorem Inv.exec (h : Inv digest s) {action : SendAction}
    (hexec : SendAction.exec digest s action = some t) : Inv digest t := by
  cases action with
  | tick milliseconds =>
    cases hexec
    exact ⟨h.bounded, h.landed, h.counted, h.expires, h.limited⟩
  | reserve p d =>
    cases hexec
    apply h.counted_step
    · intro w
      split <;> simp
    · split <;> simp_all [SendStatus.occupies]
  | loseReserve p d =>
    cases hexec
    exact h.counted_step (by simp) (by simp [SendStatus.occupies])
  | succeed j => exact h.settle rfl (by simp) hexec
  | fail j => exact h.settle rfl (by simp) hexec
  | release j => exact h.release hexec
  | loseRelease j => exact h.settle rfl (by simp) hexec

end SendState

open SendState SendAction

/-! ### Safety -/

/-- In every window of a key, the sends that were reserved in it and succeeded or are in flight
are within the limit, but for the releases of earlier windows that landed in it; and a counter
always expires. -/
theorem sends_withinLimit (digest : String → String) (actions : List SendAction) {s : SendState}
    (hrun : Txn.run (exec digest) initial actions = some s) :
    (∀ p d w, s.occupied (keyFor digest p d) w ≤
      (sendLimits p).limit + s.carriedOver (keyFor digest p d) w) ∧
    ∀ key c, s.redis key = some c → ∃ time, c.expiresAt = some time := by
  have hinv : Inv digest s :=
    Txn.run_induction (fun _ _ _ hs h => Inv.exec hs h) inv_initial hrun
  exact ⟨hinv.limited, hinv.expires⟩

/-- The digest of the one number in the runs below. -/
def phoneDigest (_ : String) : String :=
  "7f83b1657ff1fc53b92dc18148a1d65dfc2d4b1fa3d677284addd200126d9069"

/-- An attempt on that number. -/
def phoneAttempt : SendAction := .reserve .phoneVerification "+15005550006"

/-- A failed send gives its unit back, and the next one gets it. -/
def retriedAttempts : List SendAction :=
  [phoneAttempt, phoneAttempt, phoneAttempt, .fail 0, .release 0, phoneAttempt]

theorem sends_withinLimit_retried :
    ∃ s, Txn.run (exec phoneDigest) initial retriedAttempts = some s ∧
      (∀ p d w, s.occupied (keyFor phoneDigest p d) w ≤
        (sendLimits p).limit + s.carriedOver (keyFor phoneDigest p d) w) ∧
      ∀ key c, s.redis key = some c → ∃ time, c.expiresAt = some time :=
  ⟨_, rfl, sends_withinLimit phoneDigest retriedAttempts rfl⟩

/-! ### Who uses the budget up -/

/-- An attempt on the key is refused only when the limit of its window is sent or in flight. -/
def RefusedWhenFull (digest : String → String) (key : String) (s : SendState) :
    SendAction → Prop
  | .reserve p d => keyFor digest p d = key → Refuses digest s p d →
      (sendLimits p).limit ≤ s.occupied key (s.windowNow key)
  | _ => True

/-- An attempt on the key that finds a free unit finds fewer refused attempts than free units. -/
def RefusedFewerThanFree (digest : String → String) (key : String) (s : SendState) :
    SendAction → Prop
  | .reserve p d => keyFor digest p d = key →
      s.occupied key (s.windowNow key) < (sendLimits p).limit →
      s.refused key (s.windowNow key) <
        (sendLimits p).limit - s.occupied key (s.windowNow key)
  | _ => True

/-- The attempts on the key fall in the window after `last`, and every release lands in it. -/
def WithinWindow (digest : String → String) (key : String) (last : ℕ) (s : SendState) :
    SendAction → Prop
  | .reserve p d => keyFor digest p d = key → (s.get? key).isSome ∨ s.windows key = last
  | .loseReserve p d => keyFor digest p d ≠ key
  | .release i => ∀ a ∈ s.attempts[i]?, a.key = key → (s.get? key).isSome
  | .loseRelease i => ∀ a ∈ s.attempts[i]?, a.key ≠ key
  | _ => True

instance (digest : String → String) (key : String) (s : SendState) :
    ∀ a, Decidable (RefusedWhenFull digest key s a)
  | .reserve p d => inferInstanceAs (Decidable (keyFor digest p d = key → Refuses digest s p d →
      (sendLimits p).limit ≤ s.occupied key (s.windowNow key)))
  | .tick _ | .loseReserve _ _ | .succeed _ | .fail _ | .release _ | .loseRelease _ =>
    isTrue trivial

instance (digest : String → String) (key : String) (last : ℕ) (s : SendState) :
    ∀ a, Decidable (WithinWindow digest key last s a)
  | .reserve p d => inferInstanceAs (Decidable
      (keyFor digest p d = key → (s.get? key).isSome ∨ s.windows key = last))
  | .loseReserve p d => inferInstanceAs (Decidable (keyFor digest p d ≠ key))
  | .release i => inferInstanceAs (Decidable
      (∀ a ∈ s.attempts[i]?, a.key = key → (s.get? key).isSome))
  | .loseRelease i => inferInstanceAs (Decidable (∀ a ∈ s.attempts[i]?, a.key ≠ key))
  | .tick _ | .succeed _ | .fail _ => isTrue trivial

/-- No window of the key is open, and no attempt on it is under way. -/
structure BetweenWindows (key : String) (s : SendState) : Prop where
  closed : s.get? key = none
  settled : ∀ a ∈ s.attempts, a.key = key → a.status ≠ .inFlight ∧ a.status ≠ .failed

/-- What holds while the attempts on the key fall in the window after `last`. -/
structure WindowInv (digest : String → String) (key : String) (last : ℕ) (s : SendState) :
    Prop where
  inv : Inv digest s
  opened : s.windows key = last ∧ s.get? key = none ∨ s.windows key = last + 1
  older : ∀ a ∈ s.attempts, a.key = key → a.window ≤ last →
    a.status ≠ .inFlight ∧ a.status ≠ .failed ∧ a.status ≠ .released (some (last + 1))
  current : ∀ a ∈ s.attempts, a.key = key → a.window = last + 1 →
    a.status.occupies ∨ a.status = .refused ∨ a.status = .released (some (last + 1))

variable {digest : String → String} {key : String} {last : ℕ} {s t : SendState}

/-- A key between windows is about to open its next window. -/
theorem BetweenWindows.windowInv (h : BetweenWindows key s) (hinv : Inv digest s) :
    WindowInv digest key (s.windows key) s := by
  refine ⟨hinv, .inl ⟨rfl, h.closed⟩, fun a ha hkey _ => ?_, fun a ha hkey hwindow => ?_⟩
  · obtain ⟨hflight, hfailed⟩ := h.settled a ha hkey
    refine ⟨hflight, hfailed, fun hstatus => ?_⟩
    have hle := (hinv.landed a ha _ hstatus).2
    rw [hkey] at hle
    omega
  · have hle := hinv.bounded a ha
    rw [hkey] at hle
    omega

/-- A window under way is the next one. -/
theorem WindowInv.window_le (h : WindowInv digest key last s) {a : SendAttempt}
    (ha : a ∈ s.attempts) (hkey : a.key = key) : a.window ≤ last + 1 := by
  have hle := h.inv.bounded a ha
  rw [hkey] at hle
  rcases h.opened with ⟨hlast, -⟩ | hnext <;> omega

/-- In its window the key counts what is sent or in flight, and what it refused. -/
theorem WindowInv.taken_eq (h : WindowInv digest key last s) :
    s.taken key (last + 1) =
      s.occupied key (last + 1) + s.refused key (last + 1) + s.givenBack key (last + 1) := by
  have hsplit : ∀ a ∈ s.attempts, (a.key = key ∧ a.window = last + 1 ↔
      (a.key = key ∧ a.window = last + 1 ∧ (a.status.occupies ∨ a.status = .refused)) ∨
      (a.key = key ∧ a.status = .released (some (last + 1)))) := by
    intro a ha
    constructor
    · rintro ⟨hkey, hwindow⟩
      rcases h.current a ha hkey hwindow with hocc | href | hback
      · exact .inl ⟨hkey, hwindow, .inl hocc⟩
      · exact .inl ⟨hkey, hwindow, .inr href⟩
      · exact .inr ⟨hkey, hback⟩
    · rintro (⟨hkey, hwindow, -⟩ | ⟨hkey, hback⟩)
      · exact ⟨hkey, hwindow⟩
      · have hle := h.window_le ha hkey
        have hnew : ¬ a.window ≤ last := fun hold => (h.older a ha hkey hold).2.2 hback
        exact ⟨hkey, by omega⟩
  let kept : SendAttempt → Bool := fun a =>
    a.key = key ∧ a.window = last + 1 ∧ (a.status.occupies ∨ a.status = .refused)
  have hle : s.taken key (last + 1) ≤ s.attempts.countP kept + s.givenBack key (last + 1) :=
    countP_le_add fun a ha htaken => by
      simpa [kept] using (hsplit a ha).mp (by simpa using htaken)
  have hge : s.attempts.countP kept + s.givenBack key (last + 1) ≤ s.taken key (last + 1) := by
    apply add_countP_le
    · intro a ha hkept
      simpa using (hsplit a ha).mpr (.inl (by simpa [kept] using hkept))
    · intro a ha hback
      simp only [decide_eq_true_eq] at hback
      refine ⟨by simpa using (hsplit a ha).mpr (.inr hback), ?_⟩
      simp [kept, hback.2, SendStatus.occupies]
  have hkept : s.attempts.countP kept ≤ s.occupied key (last + 1) + s.refused key (last + 1) :=
    countP_le_add fun a _ ha => by
      simp only [kept, decide_eq_true_eq] at ha ⊢
      tauto
  have hkept' : s.occupied key (last + 1) + s.refused key (last + 1) ≤ s.attempts.countP kept := by
    apply add_countP_le
    · intro a _ ha
      simp only [kept, decide_eq_true_eq] at ha ⊢
      tauto
    · intro a _ ha
      simp only [kept, decide_eq_true_eq] at ha ⊢
      refine ⟨by tauto, fun hocc => ?_⟩
      simp [ha.2.2, SendStatus.occupies] at hocc
  omega

/-- An attempt within the window falls in it. -/
theorem WindowInv.windowNow_eq (h : WindowInv digest key last s)
    (hwithin : (s.get? key).isSome ∨ s.windows key = last) : s.windowNow key = last + 1 := by
  unfold windowNow
  rcases h.opened with ⟨hlast, hclosed⟩ | hnext
  · simp [hclosed, hlast]
  · have halive : (s.get? key).isSome := by
      rcases hwithin with halive | hlast
      · exact halive
      · omega
    simp [halive, hnext]

/-- Within the window the counter lets an attempt through exactly when the sends and the refused
attempts leave room for it. -/
theorem WindowInv.refuses_iff (h : WindowInv digest key last s) {p : SendPurpose} {d : String}
    (hkey : keyFor digest p d = key) (hwithin : WithinWindow digest key last s (.reserve p d)) :
    Refuses digest s p d ↔ (sendLimits p).limit ≤
      s.occupied key (s.windowNow key) + s.refused key (s.windowNow key) := by
  have hcount := h.inv.count_incrExpire key (sendLimits p).windowSeconds
  have htaken := h.taken_eq
  rw [Refuses, counterAfter, hkey, hcount, h.windowNow_eq (hwithin hkey)]
  omega

/-- Where Redis shows no counter, time brings none. -/
theorem get?_tick {milliseconds : ℕ} (h : s.get? key = none) :
    SendState.get? { s with now := s.now + milliseconds } key = none := by
  simp only [SendState.get?, Option.filter_eq_none_iff, Option.all_eq_true, decide_eq_true_eq,
    not_forall, Nat.not_lt] at h ⊢
  intro c hc
  obtain ⟨time, htime, hle⟩ := h c hc
  exact ⟨time, htime, by omega⟩

/-- Where Redis shows no counter, a release brings none. -/
theorem get?_runReleaseScript {key' : String} (h : s.get? key = none) :
    (s.runReleaseScript key').get? key = none := by
  unfold runReleaseScript
  split
  · next c hget =>
    have hne : key ≠ key' := by
      rintro rfl
      simp [h] at hget
    rw [← h]
    simp only [SendState.get?, Function.update_of_ne hne]
  · exact h

/-- An attempt that settles keeps the window's invariant. -/
theorem WindowInv.settled (h : WindowInv digest key last s) (hinv : Inv digest t)
    {before after : List SendAttempt} {a : SendAttempt} {status : SendStatus}
    (hattempts : s.attempts = before ++ a :: after)
    (ht : t.attempts = before ++ { a with status := status } :: after)
    (hopened : t.windows key = last ∧ t.get? key = none ∨ t.windows key = last + 1)
    (hold : a.status = .inFlight ∨ a.status = .failed)
    (hnew : a.key = key → status.occupies ∨ status = .released (some (last + 1))) :
    WindowInv digest key last t := by
  have ha : a ∈ s.attempts := hattempts ▸ List.mem_append_right _ List.mem_cons_self
  have hmem : ∀ b ∈ t.attempts, b ∈ s.attempts ∨ b = { a with status := status } := by
    intro b hb
    rw [ht] at hb
    rw [hattempts]
    simp only [List.mem_append, List.mem_cons] at hb ⊢
    tauto
  refine ⟨hinv, hopened, fun b hb hkey hwindow => ?_, fun b hb hkey hwindow => ?_⟩
  · rcases hmem b hb with hb | rfl
    · exact h.older b hb hkey hwindow
    · obtain ⟨hflight, hfailed, -⟩ := h.older a ha hkey hwindow
      rcases hold with hstatus | hstatus
      · exact absurd hstatus hflight
      · exact absurd hstatus hfailed
  · rcases hmem b hb with hb | rfl
    · exact h.current b hb hkey hwindow
    · rcases hnew hkey with hocc | hback
      · exact .inl hocc
      · exact .inr (.inr hback)

/-- An attempt that Redis counted keeps the window's invariant. -/
theorem WindowInv.counted (h : WindowInv digest key last s) {key' : String}
    {counter : SendCounter} {status : SendStatus}
    (hinv : Inv digest (s.counted key' counter status))
    (hwithin : key' = key → (s.get? key).isSome ∨ s.windows key = last)
    (hstatus : key' = key → status.occupies ∨ status = .refused) :
    WindowInv digest key last (s.counted key' counter status) := by
  refine ⟨hinv, ?_, fun b hb hkey hwindow => ?_, fun b hb hkey hwindow => ?_⟩
  · by_cases hkey : key' = key
    · subst hkey
      rw [windows_counted]
      exact .inr (h.windowNow_eq (hwithin rfl))
    · have hget : (s.counted key' counter status).get? key = s.get? key := by
        unfold SendState.get?
        rw [redis_counted_of_ne (Ne.symm hkey)]
        rfl
      rw [windows_counted_of_ne (Ne.symm hkey), hget]
      exact h.opened
  · rcases List.mem_append.mp hb with hold | hnew
    · exact h.older b hold hkey hwindow
    · obtain rfl := List.mem_singleton.mp hnew
      obtain rfl : key' = key := hkey
      have heq := h.windowNow_eq (hwithin rfl)
      simp only at hwindow
      omega
  · rcases List.mem_append.mp hb with hold | hnew
    · exact h.current b hold hkey hwindow
    · obtain rfl := List.mem_singleton.mp hnew
      rcases hstatus hkey with hocc | href
      · exact .inl hocc
      · exact .inr (.inl href)

/-- Every action within the window keeps its invariant. -/
theorem WindowInv.exec (h : WindowInv digest key last s) {action : SendAction}
    (hwithin : WithinWindow digest key last s action)
    (hexec : SendAction.exec digest s action = some t) : WindowInv digest key last t := by
  have hinv := h.inv.exec hexec
  cases action with
  | tick milliseconds =>
    cases hexec
    refine ⟨hinv, ?_, h.older, h.current⟩
    rcases h.opened with ⟨hlast, hclosed⟩ | hnext
    · exact .inl ⟨hlast, get?_tick hclosed⟩
    · exact .inr hnext
  | reserve p d =>
    cases hexec
    apply h.counted hinv hwithin
    intro _
    split <;> simp [SendStatus.occupies]
  | loseReserve p d =>
    cases hexec
    exact h.counted hinv (fun hkey => absurd hkey hwithin) fun hkey => absurd hkey hwithin
  | succeed j =>
    obtain ⟨before, a, after, hattempts, -, hflight, rfl⟩ := settle_cases hexec
    exact h.settled hinv hattempts rfl h.opened (.inl hflight) fun _ => .inl rfl
  | fail j =>
    obtain ⟨before, a, after, hattempts, -, hflight, rfl⟩ := settle_cases hexec
    exact h.settled hinv hattempts rfl h.opened (.inl hflight) fun _ => .inl rfl
  | loseRelease j =>
    obtain ⟨before, a, after, hattempts, ha, hfailed, rfl⟩ := settle_cases hexec
    exact h.settled hinv hattempts rfl h.opened (.inr hfailed) fun hkey =>
      absurd hkey (hwithin a ha)
  | release j =>
    simp only [SendAction.exec, Option.bind_eq_bind, Option.bind_eq_some_iff,
      Option.some.injEq] at hexec
    obtain ⟨a, ha, u, hsettle, rfl⟩ := hexec
    obtain ⟨before, b, after, hattempts, hb, hfailed, rfl⟩ := settle_cases hsettle
    obtain rfl := Option.some.inj (ha.symm.trans hb)
    refine h.settled hinv hattempts (runReleaseScript_attempts _) ?_ (.inr hfailed) ?_
    · rw [runReleaseScript_windows]
      rcases h.opened with ⟨hlast, hclosed⟩ | hnext
      · exact .inl ⟨hlast, get?_runReleaseScript hclosed⟩
      · exact .inr hnext
    · rintro rfl
      obtain ⟨c, hget⟩ := Option.isSome_iff_exists.mp (hwithin a ha rfl)
      rcases h.opened with ⟨-, hclosed⟩ | hnext
      · simp [hclosed] at hget
      · simp [releaseWindow, hget, hnext]

/-- In one window of a key, whatever its attempts do and in whatever order: exactly while the
refused attempts are fewer than the free units, nobody is refused who would have one. -/
theorem refusals_iff (digest : String → String) (key : String)
    (before actions : List SendAction) {s : SendState}
    (hrun : Txn.run (exec digest) initial before = some s) (hquiet : BetweenWindows key s)
    (hwithin : Txn.Along (exec digest) (WithinWindow digest key (s.windows key)) s actions) :
    Txn.Along (exec digest) (RefusedWhenFull digest key) s actions ↔
      Txn.Along (exec digest) (RefusedFewerThanFree digest key) s actions := by
  have hinv : Inv digest s :=
    Txn.run_induction (fun _ _ _ hs h => Inv.exec hs h) inv_initial hrun
  refine Txn.along_congr (P := WindowInv digest key (s.windows key))
    (fun u a v hwithin hu h => hu.exec hwithin h) ?_ (hquiet.windowInv hinv) hwithin
  intro u a hwithin hu
  cases a with
  | reserve p d =>
    unfold RefusedWhenFull RefusedFewerThanFree
    refine forall_congr' fun hkey => ?_
    rw [hu.refuses_iff hkey hwithin]
    omega
  | _ => exact Iff.rfl

/-- The key of the number in the runs. -/
def phoneKey : String := keyFor phoneDigest .phoneVerification "+15005550006"

theorem refusals_iff_retried :
    Txn.Along (exec phoneDigest) (RefusedWhenFull phoneDigest phoneKey) initial
        retriedAttempts ↔
      Txn.Along (exec phoneDigest) (RefusedFewerThanFree phoneDigest phoneKey) initial
        retriedAttempts :=
  refusals_iff phoneDigest phoneKey [] retriedAttempts rfl ⟨rfl, by simp [initial]⟩
    (by decide +kernel)

/-- The attempt that is refused after the third takes the unit that the first gives back. -/
theorem not_refusedWhenFull_refused :
    ¬ ∀ actions, Txn.Along (exec phoneDigest) (WithinWindow phoneDigest phoneKey 0) initial
        actions →
      Txn.Along (exec phoneDigest) (RefusedWhenFull phoneDigest phoneKey) initial actions := by
  intro hall
  have hwithin : Txn.Along (exec phoneDigest) (WithinWindow phoneDigest phoneKey 0) initial
      [phoneAttempt, phoneAttempt, phoneAttempt, phoneAttempt, .fail 0, .release 0,
        phoneAttempt] := by decide +kernel
  exact absurd (hall _ hwithin) (by decide +kernel)

end NestApi
