import Mathlib.Data.NNRat.Lemmas
import Mathlib.Tactic.NormNum
import NestApi.McpOAuth.PayloadAdapter

/-!
# What the payload table stands for

An ideal map holds, under a model and an id, the last payload, the time until which it is there,
and when it was consumed. The table answers as that map does, but for an expiry of zero seconds,
which it takes for none, and for a fraction of a millisecond.
-/

namespace NestApi.OAuthPayloads

/-! ### The ideal map -/

structure IdealEntry where
  payload : AdapterPayload
  /-- In milliseconds. -/
  deadline : Option ℚ
  consumedAt : Option ℕ

/-- The time until which a record is there. -/
def deadlineOf (now : ℕ) (expiresIn : Option ℚ≥0) : Option ℚ :=
  expiresIn.map fun seconds : ℚ≥0 => (now : ℚ) + (seconds : ℚ) * 1000

/-- The payload at a time: nothing from the deadline on. -/
def IdealEntry.read (e : IdealEntry) (now : ℕ) : Option AdapterPayload :=
  if e.deadline.any fun deadline => deadline ≤ (now : ℚ) then none
  else
    match e.consumedAt with
    | none => some e.payload
    | some time => some { e.payload with consumed := some (.num (time / 1000 : ℕ)) }

/-- What the ideal map holds after the calls of a history, newest first. -/
def entryAfter (model id : String) : List (ℕ × PayloadOp) → Option IdealEntry
  | [] => none
  | (now, op) :: history =>
    let before := entryAfter model id history
    match op with
    | .upsert m i payload expiresIn =>
      if m = model ∧ i = id then
        some ⟨payload, deadlineOf now expiresIn, before.bind IdealEntry.consumedAt⟩
      else before
    | .consume m i =>
      if m = model ∧ i = id then
        before.map fun e => { e with consumedAt := e.consumedAt.or (some now) }
      else before
    | .destroy m i => if m = model ∧ i = id then none else before
    | .revokeByGrantId grantId => before.filter fun e => e.payload.grantId ≠ some grantId
    | .find _ _ | .findByUid _ _ | .findByUserCode _ _ => before

namespace PayloadOp

/-- The id that a call names. -/
def id? : PayloadOp → Option String
  | .upsert _ id _ _ | .find _ id | .consume _ id | .destroy _ id => some id
  | .findByUid _ _ | .findByUserCode _ _ | .revokeByGrantId _ => none

/-- The library puts the id of a record into its payload. -/
def KeepsJti : PayloadOp → Prop
  | .upsert _ id payload _ => payload.jti = some id
  | _ => True

/-- An expiry, if there is one, is a positive number of whole milliseconds. -/
def ExpiresLater : PayloadOp → Prop
  | .upsert _ _ _ (some seconds) => seconds ≠ 0 ∧ ∃ n : ℕ, (seconds : ℚ) * 1000 = n
  | _ => True

/-- The call is about the row: it names its model and id, or revokes its grant. -/
def Touches (sha256 : String → String) (row : PayloadRow) : PayloadOp → Prop
  | .upsert m i _ _ | .consume m i | .destroy m i => row.key = (m, key sha256 m i)
  | .revokeByGrantId grantId => row.grantId = some grantId
  | .find _ _ | .findByUid _ _ | .findByUserCode _ _ => False

end PayloadOp

/-- No other id of the history has the hash of this one. -/
def CollisionFree (sha256 : String → String) (id : String) (history : List (ℕ × PayloadOp)) :
    Prop :=
  ∀ e ∈ history, ∀ id' ∈ e.2.id?, sha256 id' = sha256 id → id' = id

variable {sha256 : String → String} {t : PayloadTable} {now : ℕ} {model id : String}
  {history : List (ℕ × PayloadOp)}

/-- Without a collision two ids with one key are the same. -/
theorem key_inj {id' : String} (hfree : sha256 id' = sha256 id → id' = id)
    (h : key sha256 model id' = key sha256 model id) : id' = id := by
  unfold key at h
  split at h
  · exact hfree h
  · exact h

/-! ### Lookups after a call -/

theorem find?_upsert_self {payload : AdapterPayload} {expiresIn : Option ℚ≥0} :
    (upsert sha256 t now model id payload expiresIn).find? (model, key sha256 model id) =
      some { (dataOf now model payload expiresIn).create model (key sha256 model id) with
        consumedAt := (t.find? (model, key sha256 model id)).bind PayloadRow.consumedAt } := by
  unfold upsert
  cases hrow : t.find? (model, key sha256 model id) with
  | some r =>
    have hkey : r.key = (model, key sha256 model id) := Txn.Table.key_of_find? hrow
    obtain ⟨hmodel, hid⟩ := Prod.mk.inj hkey
    simp [Txn.Table.find?_update, hrow, PayloadData.create, PayloadData.update, hmodel, hid]
  | none =>
    have hfresh : ∀ r ∈ t, PayloadRow.key r ≠ (model, key sha256 model id) :=
      Txn.Table.find?_eq_none.mp hrow
    apply Txn.Table.find?_eq_some.mpr
    exact ⟨(Txn.Table.mem_insert hfresh).mpr (.inr rfl), rfl⟩

theorem find?_upsert_of_ne {payload : AdapterPayload} {expiresIn : Option ℚ≥0}
    {k : String × String} (hk : k ≠ (model, key sha256 model id)) :
    (upsert sha256 t now model id payload expiresIn).find? k = t.find? k := by
  unfold upsert
  split
  · exact Txn.Table.find?_update_of_not_mem (by simpa using hk)
  · exact Txn.Table.find?_insert hk

theorem find?_destroy_self :
    (destroy sha256 t model id).find? (model, key sha256 model id) = none :=
  Txn.Table.find?_delete_of_mem (by simp)

theorem find?_destroy_of_ne {k : String × String} (hk : k ≠ (model, key sha256 model id)) :
    (destroy sha256 t model id).find? k = t.find? k :=
  Txn.Table.find?_delete (by simpa using hk)

/-- A revocation takes the rows of its grant. -/
theorem find?_revokeByGrantId {grantId : String} {k : String × String} :
    (revokeByGrantId t grantId).find? k =
      (t.find? k).filter fun r => r.grantId ≠ some grantId := by
  unfold revokeByGrantId
  cases hrow : t.find? k with
  | none =>
    refine Txn.Table.find?_eq_none.mpr fun r hr => ?_
    exact Txn.Table.find?_eq_none.mp hrow r (Txn.Table.mem_delete.mp hr).1
  | some r =>
    obtain ⟨hmem, hkey⟩ := Txn.Table.find?_eq_some.mp hrow
    by_cases hgrant : r.grantId = some grantId
    · rw [Txn.Table.find?_delete_of_mem]
      · simp [Option.filter, hgrant]
      · exact List.mem_map.mpr ⟨r, by simp [hmem, hgrant], hkey⟩
    · rw [Txn.Table.find?_delete, hrow]
      · simp [Option.filter, hgrant]
      · intro hk
        obtain ⟨r', hr', hkey'⟩ := List.mem_map.mp hk
        obtain ⟨hmem', hgrant'⟩ := Txn.Table.mem_filter.mp hr'
        obtain rfl := Txn.Table.eq_of_key hmem' hmem (hkey'.trans hkey.symm)
        exact hgrant (by simpa using hgrant')

/-- The row that a consumption flips is the unconsumed one under its key. -/
theorem mem_consumable_keys {k : String × String} :
    k ∈ (consumable sha256 t model id).map PayloadRow.key ↔
      k = (model, key sha256 model id) ∧
        ∃ r, t.find? k = some r ∧ r.consumedAt = none := by
  constructor
  · intro hk
    obtain ⟨r, hr, rfl⟩ := List.mem_map.mp hk
    obtain ⟨hmem, hselected⟩ := Txn.Table.mem_filter.mp hr
    simp only [decide_eq_true_eq] at hselected
    obtain ⟨hmodel, hid, hfree⟩ := hselected
    exact ⟨Prod.ext hmodel hid, r, Txn.Table.find?_of_mem hmem, hfree⟩
  · rintro ⟨rfl, r, hrow, hfree⟩
    obtain ⟨hmem, hkey⟩ := Txn.Table.find?_eq_some.mp hrow
    obtain ⟨hmodel, hid⟩ := Prod.mk.inj hkey
    refine List.mem_map.mpr ⟨r, Txn.Table.mem_filter.mpr ⟨hmem, ?_⟩, hkey⟩
    simp [hmodel, hid, hfree]

theorem find?_consume_self : (consume sha256 t now model id).1.find? (model, key sha256 model id) =
    (t.find? (model, key sha256 model id)).map fun r =>
      { r with consumedAt := r.consumedAt.or (some now) } := by
  simp only [consume, Txn.Table.find?_update]
  refine Option.map_congr fun r hr => ?_
  split
  · next hk =>
    obtain ⟨-, r', hr', hfree⟩ := mem_consumable_keys.mp hk
    obtain rfl := Option.some.inj (hr.symm.trans hr')
    simp [consumeRow, hfree]
  · next hk =>
    cases hconsumed : r.consumedAt with
    | none => exact absurd (mem_consumable_keys.mpr ⟨rfl, r, hr, hconsumed⟩) hk
    | some time =>
      rw [Option.some_or, ← hconsumed]

theorem find?_consume_of_ne {k : String × String} (hk : k ≠ (model, key sha256 model id)) :
    (consume sha256 t now model id).1.find? k = t.find? k := by
  apply Txn.Table.find?_update_of_not_mem
  exact fun h => hk (mem_consumable_keys.mp h).1

/-- A consumption is refused when there is no unconsumed row. -/
theorem consume_answer : (consume sha256 t now model id).2 = .invalidGrant ↔
    ∀ r, t.find? (model, key sha256 model id) = some r → r.consumedAt ≠ none := by
  have hempty : (consumable sha256 t model id).length = 0 ↔
      ∀ r, t.find? (model, key sha256 model id) = some r → r.consumedAt ≠ none := by
    rw [List.length_eq_zero_iff]
    constructor
    · intro hnil r hr hfree
      have hk := mem_consumable_keys.mpr ⟨rfl, r, hr, hfree⟩
      simp [hnil] at hk
    · intro hnone
      rw [← List.map_eq_nil_iff (f := PayloadRow.key), List.eq_nil_iff_forall_not_mem]
      intro k hk
      obtain ⟨rfl, r, hr, hfree⟩ := mem_consumable_keys.mp hk
      exact hnone r hr hfree
  rw [← hempty]
  simp only [consume]
  split
  · next hnone => simp [hnone]
  · next hsome => simp [hsome]

/-! ### The simulation -/

/-- A row stands for an entry of the ideal map. -/
structure RowMatches (model id : String) (row : PayloadRow) (e : IdealEntry) : Prop where
  jti : e.payload.jti = some id
  payload : row.payload = stored model e.payload
  grantId : row.grantId = e.payload.grantId
  consumedAt : row.consumedAt = e.consumedAt
  expired : ∀ now : ℕ, (row.expiresAt.any fun expiresAt => expiresAt ≤ now) =
    e.deadline.any fun deadline => deadline ≤ (now : ℚ)

/-- The table and the map have an entry or neither has. -/
def EntryMatches (model id : String) : Option PayloadRow → Option IdealEntry → Prop
  | none, none => True
  | some row, some e => RowMatches model id row e
  | _, _ => False

/-- A deadline after whole milliseconds is the stored time. -/
theorem expired_eq {expiresIn : Option ℚ≥0}
    (h : ∀ seconds ∈ expiresIn, seconds ≠ 0 ∧ ∃ n : ℕ, (seconds : ℚ) * 1000 = n) (time : ℕ) :
    ((expiryOf now expiresIn).any fun expiresAt => expiresAt ≤ time) =
      (deadlineOf now expiresIn).any fun deadline => deadline ≤ (time : ℚ) := by
  cases expiresIn with
  | none => rfl
  | some seconds =>
    obtain ⟨hpos, n, hn⟩ := h seconds rfl
    have hfloor : ((now : ℚ) + n).floor.toNat = now + n := by
      have hcast : (now : ℚ) + n = ((now + n : ℕ) : ℚ) := by push_cast; rfl
      rw [hcast]
      rfl
    have hle : (now : ℚ) + n ≤ time ↔ now + n ≤ time := by exact_mod_cast Iff.rfl
    simp [expiryOf, deadlineOf, Option.filter, hpos, hn, hfloor, hle]

/-- An upsert stores the entry that the map gets. -/
theorem rowMatches_upsert {payload : AdapterPayload} {expiresIn : Option ℚ≥0}
    {consumedAt : Option ℕ} (hjti : payload.jti = some id)
    (h : ∀ seconds ∈ expiresIn, seconds ≠ 0 ∧ ∃ n : ℕ, (seconds : ℚ) * 1000 = n) :
    RowMatches model id
      { (dataOf now model payload expiresIn).create model (key sha256 model id) with
        consumedAt := consumedAt }
      ⟨payload, deadlineOf now expiresIn, consumedAt⟩ :=
  ⟨hjti, rfl, rfl, rfl, expired_eq h⟩

theorem EntryMatches.consumedAt {row : Option PayloadRow} {e : Option IdealEntry}
    (h : EntryMatches model id row e) :
    row.bind PayloadRow.consumedAt = e.bind IdealEntry.consumedAt := by
  cases row <;> cases e
  · rfl
  · exact h.elim
  · exact h.elim
  · exact RowMatches.consumedAt h

/-- A consumption flips the row as the map flips its entry. -/
theorem EntryMatches.consume {row : Option PayloadRow} {e : Option IdealEntry}
    (h : EntryMatches model id row e) (now : ℕ) :
    EntryMatches model id
      (row.map fun r => { r with consumedAt := r.consumedAt.or (some now) })
      (e.map fun e => { e with consumedAt := e.consumedAt.or (some now) }) := by
  cases row <;> cases e
  · trivial
  · exact h.elim
  · exact h.elim
  · next r e =>
    have hmatch : RowMatches model id r e := h
    exact ⟨hmatch.jti, hmatch.payload, hmatch.grantId,
      congrArg (fun c => c.or (some now)) hmatch.consumedAt, hmatch.expired⟩

/-- A revocation takes the row with the entry. -/
theorem EntryMatches.revoke {row : Option PayloadRow} {e : Option IdealEntry}
    (h : EntryMatches model id row e) (grantId : String) :
    EntryMatches model id (row.filter fun r => r.grantId ≠ some grantId)
      (e.filter fun e => e.payload.grantId ≠ some grantId) := by
  cases row <;> cases e
  · trivial
  · exact h.elim
  · exact h.elim
  · next r e =>
    have hmatch : RowMatches model id r e := h
    by_cases hgrant : e.payload.grantId = some grantId
    · simp [Option.filter, hmatch.grantId, hgrant, EntryMatches]
    · simpa [Option.filter, hmatch.grantId, hgrant, EntryMatches] using hmatch

/-- Another model or id has another key. -/
theorem key_ne {m i : String} (hne : ¬ (m = model ∧ i = id))
    (hfree : sha256 i = sha256 id → i = id) :
    (model, key sha256 model id) ≠ (m, key sha256 m i) := by
  intro heq
  obtain ⟨rfl, hkey⟩ := Prod.mk.inj heq
  exact hne ⟨rfl, key_inj hfree hkey.symm⟩

/-- The table holds what the ideal map holds, under ids without a collision. -/
theorem entryMatches (hjti : ∀ e ∈ history, e.2.KeepsJti)
    (hlater : ∀ e ∈ history, e.2.ExpiresLater) (hfree : CollisionFree sha256 id history) :
    EntryMatches model id ((tableAfter sha256 history).find? (model, key sha256 model id))
      (entryAfter model id history) := by
  induction history with
  | nil => trivial
  | cons call history ih =>
    obtain ⟨now, op⟩ := call
    have ih := ih (fun e he => hjti e (List.mem_cons_of_mem _ he))
      (fun e he => hlater e (List.mem_cons_of_mem _ he))
      fun e he => hfree e (List.mem_cons_of_mem _ he)
    have hop : ∀ id' ∈ op.id?, sha256 id' = sha256 id → id' = id :=
      hfree (now, op) List.mem_cons_self
    cases op with
    | upsert m i payload expiresIn =>
      simp only [tableAfter, exec, entryAfter]
      split
      · next hsame =>
        obtain ⟨rfl, rfl⟩ := hsame
        rw [find?_upsert_self, ih.consumedAt]
        refine rowMatches_upsert (hjti _ List.mem_cons_self) fun seconds hseconds => ?_
        obtain rfl := hseconds
        exact hlater _ List.mem_cons_self
      · next hne =>
        rw [find?_upsert_of_ne (key_ne hne (hop i rfl))]
        exact ih
    | consume m i =>
      simp only [tableAfter, exec, entryAfter]
      split
      · next hsame =>
        obtain ⟨rfl, rfl⟩ := hsame
        rw [find?_consume_self]
        exact ih.consume now
      · next hne =>
        rw [find?_consume_of_ne (key_ne hne (hop i rfl))]
        exact ih
    | destroy m i =>
      simp only [tableAfter, exec, entryAfter]
      split
      · next hsame =>
        obtain ⟨rfl, rfl⟩ := hsame
        rw [find?_destroy_self]
        trivial
      · next hne =>
        rw [find?_destroy_of_ne (key_ne hne (hop i rfl))]
        exact ih
    | revokeByGrantId grantId =>
      simp only [tableAfter, exec, entryAfter, find?_revokeByGrantId]
      exact ih.revoke grantId
    | find m i => exact ih
    | findByUid m uid => exact ih
    | findByUserCode m userCode => exact ih

/-- A row reads as the entry that it stands for. -/
theorem RowMatches.read {row : PayloadRow} {e : IdealEntry} (h : RowMatches model id row e)
    (now : ℕ) :
    toPayload now row (if model ∈ credentialModels then some id else none) = e.read now := by
  unfold toPayload IdealEntry.read
  rw [h.expired]
  split
  · rfl
  · have hpayload : { row.payload with
        jti := (if model ∈ credentialModels then some id else none).or row.payload.jti } =
        e.payload := by
      rw [h.payload]
      unfold stored
      split
      · simp [← h.jti]
      · rfl
    rw [← hpayload, h.consumedAt]
    cases e.consumedAt with
    | none => rfl
    | some time => rfl

/-- An entry that was consumed stays consumed while it is there. -/
theorem consumed_stays {later earlier : List (ℕ × PayloadOp)} {time : ℕ}
    (hconsumed : ∀ e ∈ entryAfter model id earlier, e.consumedAt = some time)
    (hstays : ∀ k, k <:+ later → (entryAfter model id (k ++ earlier)).isSome) :
    ∀ e ∈ entryAfter model id (later ++ earlier), e.consumedAt = some time := by
  induction later with
  | nil => exact hconsumed
  | cons call later ih =>
    obtain ⟨now, op⟩ := call
    have ih := ih fun k hk => hstays k (hk.trans (List.suffix_cons _ _))
    obtain ⟨before, hbefore⟩ := Option.isSome_iff_exists.mp (hstays later (List.suffix_cons _ _))
    have htime := ih before hbefore
    intro e he
    cases op with
    | upsert m i payload expiresIn =>
      simp only [List.cons_append, entryAfter, hbefore] at he
      split at he
      · obtain rfl := Option.some.inj he
        exact htime
      · obtain rfl := Option.some.inj he
        exact htime
    | consume m i =>
      simp only [List.cons_append, entryAfter, hbefore] at he
      split at he
      · obtain rfl := Option.some.inj he
        simp [htime]
      · obtain rfl := Option.some.inj he
        exact htime
    | destroy m i =>
      simp only [List.cons_append, entryAfter] at he
      split at he
      · cases he
      · exact ih e he
    | revokeByGrantId grantId =>
      simp only [List.cons_append, entryAfter] at he
      exact ih e (Option.filter_eq_some_iff.mp he).1
    | find m i => exact ih e he
    | findByUid m uid => exact ih e he
    | findByUserCode m userCode => exact ih e he

/-! ### Rows -/

/-- A call leaves the rows that it is not about. -/
theorem mem_exec_of_not_touches (op : PayloadOp) {row : PayloadRow}
    (h : ¬ op.Touches sha256 row) : row ∈ (exec sha256 t now op).1 ↔ row ∈ t := by
  cases op with
  | upsert m i payload expiresIn => exact Txn.Table.mem_congr (find?_upsert_of_ne h)
  | consume m i => exact Txn.Table.mem_congr (find?_consume_of_ne h)
  | destroy m i => exact Txn.Table.mem_congr (find?_destroy_of_ne h)
  | revokeByGrantId grantId =>
    refine ⟨fun hmem => (Txn.Table.mem_delete.mp hmem).1, fun hmem => ?_⟩
    refine Txn.Table.mem_delete.mpr ⟨hmem, fun hk => ?_⟩
    obtain ⟨r, hr, hkey⟩ := List.mem_map.mp hk
    obtain ⟨hmem', hgrant⟩ := Txn.Table.mem_filter.mp hr
    obtain rfl := Txn.Table.eq_of_key hmem' hmem hkey
    have hrevoked : r.grantId = some grantId := by simpa using hgrant
    exact h hrevoked
  | find m i => exact Iff.rfl
  | findByUid m uid => exact Iff.rfl
  | findByUserCode m userCode => exact Iff.rfl

/-- Where a row comes from: the upsert that wrote its id and payload. -/
def WrittenBy (sha256 : String → String) (history : List (ℕ × PayloadOp)) (row : PayloadRow) :
    Prop :=
  ∃ e ∈ history, ∃ id payload expiresIn, e.2 = .upsert row.model id payload expiresIn ∧
    row.id = key sha256 row.model id ∧ row.payload = stored row.model payload

theorem WrittenBy.mono {call : ℕ × PayloadOp} {row : PayloadRow}
    (h : WrittenBy sha256 history row) : WrittenBy sha256 (call :: history) row := by
  obtain ⟨e, he, hrest⟩ := h
  exact ⟨e, List.mem_cons_of_mem _ he, hrest⟩

/-- Every row holds the id and the payload of an upsert, as they are stored. -/
theorem writtenBy_of_mem (sha256 : String → String) (history : List (ℕ × PayloadOp)) :
    ∀ row ∈ tableAfter sha256 history, WrittenBy sha256 history row := by
  induction history with
  | nil => exact fun row hrow => absurd hrow Txn.Table.not_mem_empty
  | cons call history ih =>
    obtain ⟨now, op⟩ := call
    intro row hrow
    cases op with
    | upsert m i payload expiresIn =>
      by_cases hkey : row.key = (m, key sha256 m i)
      · have hfound := Txn.Table.find?_of_mem hrow
        rw [hkey] at hfound
        have hself : (tableAfter sha256 ((now, .upsert m i payload expiresIn) :: history)).find?
            (m, key sha256 m i) = _ := find?_upsert_self
        obtain rfl := Option.some.inj (hself.symm.trans hfound)
        exact ⟨_, List.mem_cons_self, i, payload, expiresIn, rfl, rfl, rfl⟩
      · have hold := (mem_exec_of_not_touches (.upsert m i payload expiresIn) hkey).mp hrow
        exact (ih row hold).mono
    | consume m i =>
      rcases Txn.Table.of_mem_update hrow with ⟨hold, -⟩ | ⟨r, hr, -, rfl⟩
      · exact (ih row hold).mono
      · exact (ih r hr).mono
    | destroy m i => exact (ih row (Txn.Table.mem_delete.mp hrow).1).mono
    | revokeByGrantId grantId => exact (ih row (Txn.Table.mem_delete.mp hrow).1).mono
    | find m i => exact (ih row hrow).mono
    | findByUid m uid => exact (ih row hrow).mono
    | findByUserCode m userCode => exact (ih row hrow).mono

/-! ### Refinement -/

/-- After a history the table answers as the ideal map does. -/
structure Refines (sha256 : String → String) (history : List (ℕ × PayloadOp)) : Prop where
  /-- A lookup gives what the map reads, and nothing from the deadline on. -/
  found : ∀ model id now, CollisionFree sha256 id history →
    find sha256 (tableAfter sha256 history) now model id =
      (entryAfter model id history).bind fun e => e.read now
  /-- A consumption is refused when the map has no entry or a consumed one. -/
  refused : ∀ model id now, CollisionFree sha256 id history →
    ((consume sha256 (tableAfter sha256 history) now model id).2 = .invalidGrant ↔
      ∀ e ∈ entryAfter model id history, e.consumedAt ≠ none)
  /-- After a consumption, and until the entry is destroyed, lookups report it and every other
  consumption is refused. -/
  consumed : ∀ model id time earlier later, CollisionFree sha256 id history →
    history = later ++ (time, .consume model id) :: earlier →
    (consume sha256 (tableAfter sha256 earlier) time model id).2 ≠ .invalidGrant →
    (∀ k, k <:+ later → (entryAfter model id (k ++ (time, .consume model id) :: earlier)).isSome) →
    ∀ now, (∀ payload ∈ find sha256 (tableAfter sha256 history) now model id,
        payload.consumed = some (.num (time / 1000 : ℕ))) ∧
      (consume sha256 (tableAfter sha256 history) now model id).2 = .invalidGrant
  /-- The row of a credential has the hash of an id and a payload without its `jti`. -/
  credential : ∀ row ∈ tableAfter sha256 history, row.model ∈ credentialModels →
    ∃ e ∈ history, ∃ id payload expiresIn, e.2 = .upsert row.model id payload expiresIn ∧
      row.id = sha256 id ∧ row.payload = { payload with jti := none }
  /-- A call leaves the rows that it is not about. -/
  frame : ∀ now op, ∀ row : PayloadRow, ¬ op.Touches sha256 row →
    (row ∈ (exec sha256 (tableAfter sha256 history) now op).1 ↔ row ∈ tableAfter sha256 history)

/-- A lookup reads the entry. -/
theorem find_eq (h : EntryMatches model id (t.find? (model, key sha256 model id))
    (entryAfter model id history)) (now : ℕ) : find sha256 t now model id =
      (entryAfter model id history).bind fun e => e.read now := by
  unfold find
  cases hrow : t.find? (model, key sha256 model id) <;>
    cases hentry : entryAfter model id history <;> rw [hrow, hentry] at h
  · rfl
  · exact h.elim
  · exact h.elim
  · next row e => exact RowMatches.read h now

/-- A consumption is refused as the entry says. -/
theorem consume_eq (h : EntryMatches model id (t.find? (model, key sha256 model id))
    (entryAfter model id history)) (now : ℕ) :
    (consume sha256 t now model id).2 = .invalidGrant ↔
      ∀ e ∈ entryAfter model id history, e.consumedAt ≠ none := by
  rw [consume_answer]
  cases hrow : t.find? (model, key sha256 model id) <;>
    cases hentry : entryAfter model id history <;> rw [hrow, hentry] at h
  · simp
  · exact h.elim
  · exact h.elim
  · next row e => simp [RowMatches.consumedAt h]

/-- A payload that is read from a consumed entry reports it. -/
theorem read_consumed {e : IdealEntry} {time : ℕ} (h : e.consumedAt = some time) :
    ∀ payload ∈ e.read now, payload.consumed = some (.num (time / 1000 : ℕ)) := by
  intro payload hpayload
  unfold IdealEntry.read at hpayload
  rw [h] at hpayload
  split at hpayload
  · cases hpayload
  · obtain rfl := Option.some.inj hpayload
    rfl

/-- The table refines the ideal map over every history whose expiries are positive. -/
theorem payloadStore_refines (sha256 : String → String) (history : List (ℕ × PayloadOp))
    (hjti : ∀ e ∈ history, e.2.KeepsJti) (hlater : ∀ e ∈ history, e.2.ExpiresLater) :
    Refines sha256 history := by
  refine ⟨fun model id now hfree => ?_, fun model id now hfree => ?_, ?_, fun row hrow hcred => ?_,
    fun now op row h => mem_exec_of_not_touches op h⟩
  · exact find_eq (entryMatches hjti hlater hfree) now
  · exact consume_eq (entryMatches hjti hlater hfree) now
  · rintro model id time earlier later hfree rfl haccepted hstays now
    have hmatch : EntryMatches model id _ _ := entryMatches hjti hlater hfree
    have hbefore : EntryMatches model id
        ((tableAfter sha256 earlier).find? (model, key sha256 model id))
        (entryAfter model id earlier) :=
      entryMatches (fun e he => hjti e (by simp [he])) (fun e he => hlater e (by simp [he]))
        fun e he => hfree e (by simp [he])
    have hflipped : ∀ e ∈ entryAfter model id ((time, .consume model id) :: earlier),
        e.consumedAt = some time := by
      intro e he
      simp only [entryAfter, and_self, if_true, Option.mem_def, Option.map_eq_some_iff] at he
      obtain ⟨e₀, he₀, rfl⟩ := he
      have hfirst : e₀.consumedAt = none := by
        by_contra hconsumed
        refine haccepted ((consume_eq hbefore time).mpr fun e he => ?_)
        obtain rfl := Option.some.inj (he₀.symm.trans he)
        exact hconsumed
      simp [hfirst]
    have hall := consumed_stays hflipped hstays
    constructor
    · intro payload hpayload
      rw [find_eq hmatch, Option.mem_def, Option.bind_eq_some_iff] at hpayload
      obtain ⟨e, he, hread⟩ := hpayload
      exact read_consumed (hall e he) payload hread
    · rw [consume_eq hmatch]
      intro e he
      simp [hall e he]
  · obtain ⟨e, he, id, payload, expiresIn, hop, hid, hpayload⟩ :=
      writtenBy_of_mem sha256 history row hrow
    rw [key, if_pos hcred] at hid
    rw [stored, if_pos hcred] at hpayload
    exact ⟨e, he, id, payload, expiresIn, hop, hid, hpayload⟩

/-! ### Runs -/

/-- The payload of an access token. -/
def tokenPayload : AdapterPayload where
  jti := some "token"
  grantId := some "grant"
  userCode := none
  uid := none
  consumed := none
  other name := if name = "accountId" then some (.str "user") else none

/-- The hash of that token. -/
def tokenSha256 (_ : String) : String :=
  "3c469e9d6c5875d37a43f353d4f88e61fcf812c66eee3457465a40b0da4153e0"

/-- A token that is stored for a number of seconds. -/
def tokenStored (expiresIn : ℚ≥0) : List (ℕ × PayloadOp) :=
  [(1700000000000, .upsert "AccessToken" "token" tokenPayload (some expiresIn))]

theorem payloadStore_refines_token : Refines tokenSha256 (tokenStored 3600) := by
  apply payloadStore_refines tokenSha256 (tokenStored 3600)
  · simp [tokenStored, PayloadOp.KeepsJti, tokenPayload]
  · simp only [tokenStored, List.mem_singleton, forall_eq, PayloadOp.ExpiresLater]
    exact ⟨by norm_num, 3600000, by norm_num⟩

/-- A record that is stored for zero seconds is still there. -/
theorem not_refines_zero : ¬ ∀ history : List (ℕ × PayloadOp),
    (∀ e ∈ history, e.2.KeepsJti) → Refines tokenSha256 history := by
  intro hall
  have hjti : ∀ e ∈ tokenStored 0, e.2.KeepsJti := by
    simp [tokenStored, PayloadOp.KeepsJti, tokenPayload]
  have hfree : CollisionFree tokenSha256 "token" (tokenStored 0) := by
    simp [CollisionFree, tokenStored, PayloadOp.id?]
  have hfound := (hall _ hjti).found "AccessToken" "token" 1700000000000 hfree
  have hread : (entryAfter "AccessToken" "token" (tokenStored 0)).bind
      (fun e => e.read 1700000000000) = none := by
    simp [tokenStored, entryAfter, deadlineOf, IdealEntry.read]
  have hstored : (find tokenSha256 (tableAfter tokenSha256 (tokenStored 0)) 1700000000000
      "AccessToken" "token").isSome := by decide +kernel
  rw [hfound, hread] at hstored
  cases hstored

end NestApi.OAuthPayloads
