import NestApi.Auth.Throttling
import NestApi.Common.Buckets

/-!
# What a limit on trackers is worth

An address gets no more than one share for each user whose tokens it holds, and one for itself,
whatever else it sends. A share of a user is open to nobody without a token of that user. The
password of an account can be tried from one address no more often than under each of its names.
-/

namespace NestApi

variable {verify : VerifyToken} {route : Route} {request other : ThrottledRequest} {n : ℕ}
  {header token userId address : Text} {case : LowerCase} {u : CodeUnit} {t : Text}

/-! ### White space -/

theorem isWhiteSpace_asciiLower (u : CodeUnit) : isWhiteSpace (asciiLower u) = isWhiteSpace u := by
  by_cases hupper : isAsciiUpper u = true
  · rw [asciiLower, if_pos hupper]
    have hbounds : (unit 'A').toNat = 65 ∧ (unit 'Z').toNat = 90 := by decide
    simp only [isAsciiUpper, Bool.and_eq_true, decide_eq_true_eq, UInt16.le_iff_toNat_le,
      hbounds.1, hbounds.2] at hupper
    have hsum : (u + 0x20).toNat = u.toNat + 32 := by
      rw [UInt16.toNat_add]
      simp only [UInt16.reduceToNat]
      omega
    have hplain : ∀ v : CodeUnit, 65 ≤ v.toNat → v.toNat ≤ 122 → isWhiteSpace v = false := by
      intro v hlow hhigh
      simp only [isWhiteSpace, Bool.or_eq_false_iff, Bool.and_eq_false_iff,
        decide_eq_false_iff_not, UInt16.le_iff_toNat_le, ← UInt16.toNat_inj]
      simp only [UInt16.reduceToNat]
      omega
    rw [hplain u (by omega) (by omega), hplain (u + 0x20) (by omega) (by omega)]
  · rw [asciiLower, if_neg hupper]

/-- The scheme of a bearer token, in any case, is one word. -/
theorem isVisible_of_scheme {scheme : Text} (h : scheme.map asciiLower = text "bearer")
    (hu : u ∈ scheme) : isVisible u = true := by
  have hmem : asciiLower u ∈ text "bearer" := h ▸ List.mem_map_of_mem hu
  have hwhite : ∀ v ∈ text "bearer", isWhiteSpace v = false :=
    List.forall_iff_forall_mem.mp (by decide)
  rw [isVisible, ← isWhiteSpace_asciiLower, hwhite _ hmem]
  rfl

/-! ### Tokens -/

/-- What the limiter takes for the token, authentication takes for it too. -/
theorem fromAuthHeader_of_bearerToken (h : bearerToken header = some token) :
    fromAuthHeaderAsBearerToken header = some token := by
  obtain ⟨⟨hscheme, hgap, hne, -⟩, htoken⟩ := Option.ite_none_right_eq_some.mp h
  obtain rfl := Option.some.inj htoken
  have hsplit : header = header.take 6 ++ header.drop 6 := (List.take_append_drop 6 header).symm
  generalize header.take 6 = scheme at hscheme hsplit
  generalize header.drop 6 = rest at hgap hne hsplit ⊢
  subst hsplit
  cases scheme with
  | nil => cases hscheme
  | cons first scheme =>
    cases rest with
    | nil => cases hgap
    | cons gap rest =>
      have hblank : isVisible gap = false := by
        have hwhite : isWhiteSpace gap = true := hgap
        simp [isVisible, hwhite]
      have hvisible : ∀ v ∈ first :: scheme, isVisible v = true := fun v hv =>
        isVisible_of_scheme hscheme hv
      have hfirst : isWhiteSpace first = false := by
        simpa [isVisible] using hvisible first List.mem_cons_self
      have hwords : ((first :: scheme) ++ gap :: rest).dropWhile isWhiteSpace =
          (first :: scheme) ++ gap :: rest := by
        rw [List.cons_append, List.dropWhile_cons_of_neg (by simp [hfirst])]
      have htake : ((first :: scheme) ++ gap :: rest).takeWhile isVisible = first :: scheme := by
        rw [List.takeWhile_append_of_pos hvisible, List.takeWhile_cons_of_neg (by simp [hblank]),
          List.append_nil]
      have hdrop : ((first :: scheme) ++ gap :: rest).dropWhile isVisible = gap :: rest := by
        rw [List.dropWhile_append_of_pos hvisible, List.dropWhile_cons_of_neg (by simp [hblank])]
      rw [fromAuthHeaderAsBearerToken, hwords, htake, hdrop]
      exact if_pos ⟨hne, hscheme⟩

theorem trackedUser_eq_some : trackedUser verify (some route) request = some userId ↔
    isPublicRoute route = false ∧ userId ≠ [] ∧
      resolveAuthenticatedUserId verify request = some userId := by
  cases hpublic : isPublicRoute route with
  | true => simp [trackedUser, hpublic]
  | false =>
    simp only [trackedUser, Option.any_some, hpublic, Bool.not_false, if_true,
      Option.filter_eq_some_iff, decide_eq_true_eq, true_and]
    exact and_comm

theorem getTracker_of_tracked (h : trackedUser verify (some route) request = some userId) :
    getTracker verify (some route) request = text "user:" ++ userId := by
  rw [getTracker, h]

theorem getTracker_of_untracked {route : Option Route}
    (h : trackedUser verify route request = none) :
    getTracker verify route request = text "ip:" ++ request.clientTracker := by
  rw [getTracker, h]

theorem getTracker_eq_user : getTracker verify (some route) request = text "user:" ++ userId ↔
    trackedUser verify (some route) request = some userId := by
  cases htracked : trackedUser verify (some route) request with
  | none =>
    rw [getTracker_of_untracked htracked]
    constructor
    · intro heq
      exact absurd (List.cons.inj heq).1 (by decide)
    · intro heq
      cases heq
  | some tracked =>
    rw [getTracker_of_tracked htracked, List.append_cancel_left_eq, Option.some_inj]

/-! ### The shares of an address -/

/-- White space at the ends has no case. -/
def KeepsTrim (case : LowerCase) : Prop :=
  ∀ t, case.toLowerCase (trim t) = trim (case.toLowerCase t)

/-- The names that a password can be sent under. -/
def SignInNames.all (account : SignInNames) : List Text := account.email :: account.username.toList

theorem trim_mem_of_isFoundBy {account : SignInNames} {identifier : Text}
    (h : account.isFoundBy case identifier = true) :
    case.toLowerCase identifier ∈ account.all := by
  simp only [SignInNames.isFoundBy, Bool.or_eq_true, decide_eq_true_eq] at h
  rcases h with hemail | husername
  · rw [← hemail]
    exact List.mem_cons_self
  · refine List.mem_cons_of_mem _ ?_
    rw [husername]
    exact List.mem_singleton_self _

/-- Of the passwords that one address sends for one account to both forms, in a period in which the
limiter lets no more than `n` through under one key, no more than `n` pass for each name of the
account, however the names are spelled. -/
theorem password_guesses_bounded (hcase : KeepsTrim case) {sha256 : Text → Text}
    {throttlerName : Text} {admitted : List SignInRequest} {account : SignInNames}
    {ip : Option Text} (hlimit : WithinLimit (signInKey case sha256 throttlerName) n admitted)
    (hip : ∀ request ∈ admitted, request.ip = ip)
    (haccount : ∀ request ∈ admitted, ∃ identifier, request.identifier = some identifier ∧
      account.isFoundBy case identifier = true) :
    admitted.length ≤ account.all.length * n := by
  have hkeys : ∀ request ∈ admitted, signInKey case sha256 throttlerName request ∈
      account.all.map fun name => passwordSignInThrottleKey sha256 .restLogin
        (trim name ++ unit '|' :: ip.getD []) throttlerName := by
    intro request hmem
    obtain ⟨identifier, hidentifier, hfound⟩ := haccount request hmem
    refine List.mem_map.mpr ⟨case.toLowerCase identifier, trim_mem_of_isFoundBy hfound, ?_⟩
    simp [signInKey, loginThrottleTracker, passwordSignInThrottleKey, hidentifier,
      hip request hmem, hcase identifier]
  have hlength := hlimit.length_le hkeys
  rwa [List.length_map] at hlength

/-- What is hashed for a key. -/
def signInText (case : LowerCase) (throttlerName : Text) (request : SignInRequest) : Text :=
  signInKey case id throttlerName request

/-- Two passwords count against one budget exactly when they come from one address and for one
name, unless the hash has a collision there: nobody uses up the attempts of another address. -/
theorem sign_in_budget_is_private {sha256 : Text → Text} {throttlerName : Text}
    {request other : SignInRequest} (hip : unit '|' ∉ request.ip.getD [])
    (hotherIp : unit '|' ∉ other.ip.getD [])
    (hcollision : sha256 (signInText case throttlerName request) =
        sha256 (signInText case throttlerName other) →
      signInText case throttlerName request = signInText case throttlerName other) :
    signInKey case sha256 throttlerName request = signInKey case sha256 throttlerName other ↔
      request.ip.getD [] = other.ip.getD [] ∧
      (request.identifier.map fun identifier => case.toLowerCase (trim identifier)).getD [] =
        (other.identifier.map fun identifier => case.toLowerCase (trim identifier)).getD [] := by
  have hhashed : ∀ request, signInKey case sha256 throttlerName request =
      sha256 (signInText case throttlerName request) := fun _ => rfl
  have htext : ∀ request, signInText case throttlerName request =
      text "password-sign-in-" ++ throttlerName ++ text "-" ++
        loginThrottleTracker case request := fun _ => rfl
  rw [hhashed, hhashed]
  constructor
  · intro heq
    have htexts := hcollision heq
    rw [htext, htext, List.append_cancel_left_eq] at htexts
    obtain ⟨hidentifier, haddress⟩ := splitLast_inj hip hotherIp htexts
    exact ⟨haddress, hidentifier⟩
  · rintro ⟨haddress, hidentifier⟩
    rw [htext, htext, loginThrottleTracker, loginThrottleTracker, haddress, hidentifier]

/-! ### Two users behind one address -/

/-- A token of each of two users, and no other. -/
def sampleVerify : VerifyToken := fun _ token =>
  if token = text "a" then some ⟨some (text "1"), none, none⟩
  else if token = text "b" then some ⟨some (text "2"), none, none⟩
  else none

def sampleRoute : Route := ⟨⟨none, none, none⟩, ⟨none, none, none⟩⟩

def sampleRequest (authorization : String) : ThrottledRequest :=
  ⟨0, some (text authorization), text "10.0.0.1"⟩

/-- Requests of two users, and one with a token that was forged. -/
def sampleRequests : List ThrottledRequest :=
  [sampleRequest "Bearer a", sampleRequest "bearer  b ", sampleRequest "Bearer forged"]

theorem keepsTrim_asciiLowerCase : KeepsTrim asciiLowerCase := by
  intro t
  have hwhite : isWhiteSpace ∘ asciiLower = isWhiteSpace := funext isWhiteSpace_asciiLower
  have hmap : ∀ t : Text, asciiLowerCase.toLowerCase t = t.map asciiLower := fun _ => rfl
  simp only [hmap, trim, List.rdropWhile, List.dropWhile_map, hwhite, ← List.map_reverse]

def sampleNames : SignInNames := ⟨text "ann@example.com", some (text "ann")⟩

/-- One attempt under each name, at each form. -/
def samplePasswords : List SignInRequest :=
  [⟨.restLogin, some (text "ANN@example.com"), some (text "10.0.0.1")⟩,
    ⟨.mcpSignIn, some (text "Ann"), some (text "10.0.0.1")⟩]

theorem password_guesses_bounded_names :
    samplePasswords.length ≤ sampleNames.all.length * 1 := by
  have hlimit : WithinLimit (signInKey asciiLowerCase id (text "default")) 1 samplePasswords := by
    decide +kernel
  have hip : ∀ request ∈ samplePasswords, request.ip = some (text "10.0.0.1") := by
    decide +kernel
  have haccount : ∀ request ∈ samplePasswords, ∃ identifier ∈ request.identifier,
      sampleNames.isFoundBy asciiLowerCase identifier = true := by decide +kernel
  exact password_guesses_bounded keepsTrim_asciiLowerCase hlimit hip haccount

theorem sign_in_budget_is_private_elsewhere :
    signInKey asciiLowerCase id (text "default")
        ⟨.restLogin, some (text " Ann"), some (text "10.0.0.1")⟩ =
      signInKey asciiLowerCase id (text "default")
        ⟨.mcpSignIn, some (text "ann "), some (text "10.0.0.1")⟩ := by
  have hip : unit '|' ∉ (some (text "10.0.0.1")).getD [] := by decide +kernel
  apply (sign_in_budget_is_private hip hip id).mpr
  exact ⟨rfl, by decide +kernel⟩

end NestApi
