import WeaveAuth.Bff.IdToken
import WeaveAuth.Bff.SessionCap

/-!
# Completing a login

`service::complete` of `bff/src/server/api/callback.rs` as a whole, with nothing else in between:
the checks, the exchange of the code, the verification of the id_token, the session, and the end of
the session the browser logged in over. What each call to Hydra came to is given.

## Main results

* `complete_atomic`: a login that fails leaves the store as it was; one that succeeds passed every
  check, and changes the store by its session, those the cap takes and the previous one
* `complete_evicts_itself`: where the clock was set back, it may be its own session that the cap
  takes

## Scope

Everything but the two calls to Hydra is as the code computes it, `verify_id_token` included where
it is needed (`CallbackEnv.verifying`). That the store is only touched at the end is no assumption:
it is what `complete` returns in each of its branches. What may happen to the store between the
awaits is left to `LoginsInFlight`.

## The example

In `complete_evicts_itself` the store has twenty sessions of one user, all of them later than the
login: the cap takes one of the twenty-one, and the earliest is the new one. Only a clock that was
set back brings that about.
-/

namespace WeaveAuth

namespace Bff

/-- What `complete` reads of the configuration, and the code it calls. -/
structure CallbackEnv where
  refreshTtl : Duration
  redirectUriAllowlist : List String
  /-- SHA-256. -/
  digest : String → List (BitVec 8)
  /-- `Hydra::exchange_code`, of a code and a verifier. -/
  exchangeCode : String → String → Except HydraError TokenSet
  /-- `Hydra::verify_id_token`, of an id_token, an access token and a nonce. -/
  verifyIdToken : String → String → String → Except IdTokenError VerifiedIdToken

/-- What a callback returned and left behind. -/
structure Completed where
  result : Except CallbackServiceError StartedSession
  sessions : Sessions
  /-- The refresh tokens it asked Hydra to revoke. -/
  revoked : List String

/-- `AppState::end_session`. -/
def endSession (s : Sessions) (sessionId : String) : Option SessionData × Sessions × List String :=
  match s.takeSession sessionId with
  | (none, s) => (none, s, [])
  | (some session, s) => (some session, s, [session.refreshToken])

theorem get_endSession (s : Sessions) (sessionId id : String) :
    (endSession s sessionId).2.1.getSession id =
      if id = sessionId then none else s.getSession id := by
  rw [← Sessions.get_remove, endSession, Sessions.takeSession]
  split
  · next h => rw [h]
  · next h => rw [h]

/-- `sessionId` is what `Uuid::new_v4` returns, and `now` what the clock reads. -/
def complete (env : CallbackEnv) (sessionId : String) (now : DateTime) (s : Sessions)
    (pending : Option PendingLogin) (returned : Returned) (previous : Option String) : Completed :=
  match redeemable env.digest env.redirectUriAllowlist pending returned with
  | .error error => ⟨.error error, s, []⟩
  | .ok (pending, code) =>
    match env.exchangeCode code pending.verifier with
    | .error error => ⟨.error (.exchange error), s, []⟩
    | .ok tokens =>
      match tokens.idToken, tokens.refreshToken with
      | none, _ => ⟨.error (.missing "id_token"), s, []⟩
      | some _, none => ⟨.error (.missing "refresh_token"), s, []⟩
      | some idToken, some refreshToken =>
        match env.verifyIdToken idToken tokens.accessToken pending.nonce with
        | .error error => ⟨.error (.idToken error), s, []⟩
        | .ok verified =>
          let (evicted, s) := s.saveSession sessionId
            (newSession env.refreshTtl tokens refreshToken idToken verified now)
          let (s, revoked) := match previous with
            | none => (s, [])
            | some previous => (endSession s previous).2
          ⟨.ok ⟨sessionId, sessionMaxAgeSecs env.refreshTtl, pending.redirectUri⟩, s,
            evicted.map SessionData.refreshToken ++ revoked⟩

/-! ### The state -/

theorem foldl_or_xor_eq_zero (l : List (BitVec 8 × BitVec 8)) (diff : BitVec 8) :
    l.foldl (fun diff e => diff ||| (e.1 ^^^ e.2)) diff = 0 ↔ diff = 0 ∧ ∀ e ∈ l, e.1 = e.2 := by
  induction l generalizing diff with
  | nil => simp
  | cons e l ih => 
    rw [List.foldl_cons, ih]
    simp [and_assoc]

theorem forall_mem_zip {l l' : List (BitVec 8)} (hlength : l.length = l'.length) :
    (∀ e ∈ l.zip l', e.1 = e.2) ↔ l = l' := by
  induction l generalizing l' with
  | nil =>
    cases l' with
    | nil => simp
    | cons => cases hlength
  | cons b l ih =>
    cases l' with
    | nil => cases hlength
    | cons b' l' =>
      rw [List.zip_cons_cons, List.forall_mem_cons, ih (Nat.succ.inj hlength), List.cons.injEq]

/-- Digests of one length are compared as a whole. -/
theorem constantTimeEq_iff {digest : String → List (BitVec 8)} {a b : String}
    (hlength : (digest a).length = (digest b).length) :
    constantTimeEq digest a b = true ↔ digest a = digest b := by
  rw [constantTimeEq, beq_iff_eq, foldl_or_xor_eq_zero, forall_mem_zip hlength]
  exact and_iff_right rfl

/-! ### A login that succeeds -/

/-- What is redeemed. -/
theorem redeemable_ok {digest : String → List (BitVec 8)} {redirectUriAllowlist : List String}
    {pending : Option PendingLogin} {returned : Returned} {login : PendingLogin} {code : String}
    (h : redeemable digest redirectUriAllowlist pending returned = .ok (login, code)) :
    pending = some login ∧ login.redirectUri ∈ redirectUriAllowlist ∧
      ∃ state, returned = .code code (some state) ∧
        constantTimeEq digest state login.state = true := by
  rw [redeemable.eq_def] at h
  split at h
  · cases h
  · next login' =>
    split_ifs at h with hstate hallowed
    · cases returned <;> cases h
    cases returned with
    | refused => cases h
    | empty => cases h
    | code code' state =>
      cases h
      rw [Bool.not_eq_true', Bool.not_eq_false, Option.any_eq_true] at hstate
      obtain ⟨state', rfl, hmatches⟩ := hstate
      refine ⟨rfl, ?_, state', rfl, hmatches⟩
      simpa [allowsRedirectUri] using hallowed

/-- What a login passed that succeeds, and what it leaves. -/
theorem complete_ok {env : CallbackEnv} {sessionId : String} {now : DateTime} {s : Sessions}
    {pending : Option PendingLogin} {returned : Returned} {previous : Option String}
    {started : StartedSession}
    (h : (complete env sessionId now s pending returned previous).result = .ok started) :
    ∃ login code tokens idToken refreshToken verified,
      redeemable env.digest env.redirectUriAllowlist pending returned = .ok (login, code) ∧
      env.exchangeCode code login.verifier = .ok tokens ∧ tokens.idToken = some idToken ∧
      tokens.refreshToken = some refreshToken ∧
      env.verifyIdToken idToken tokens.accessToken login.nonce = .ok verified ∧
      started = ⟨sessionId, sessionMaxAgeSecs env.refreshTtl, login.redirectUri⟩ ∧
      ∀ id, (complete env sessionId now s pending returned previous).sessions.getSession id =
        if previous = some id then none
        else (s.saveSession sessionId (newSession env.refreshTtl tokens refreshToken idToken
          verified now)).2.getSession id := by
  cases hredeem : redeemable env.digest env.redirectUriAllowlist pending returned with
  | error error => simp [complete, hredeem] at h
  | ok redeemed =>
    obtain ⟨login, code⟩ := redeemed
    cases hexchange : env.exchangeCode code login.verifier with
    | error error => simp [complete, hredeem, hexchange] at h
    | ok tokens =>
      cases hidToken : tokens.idToken with
      | none => simp [complete, hredeem, hexchange, hidToken] at h
      | some idToken =>
        cases hrefresh : tokens.refreshToken with
        | none => simp [complete, hredeem, hexchange, hidToken, hrefresh] at h
        | some refreshToken =>
          cases hverify : env.verifyIdToken idToken tokens.accessToken login.nonce with
          | error error =>
            simp [complete, hredeem, hexchange, hidToken, hrefresh, hverify] at h
          | ok verified =>
            simp only [complete, hredeem, hexchange, hidToken, hrefresh, hverify,
              Except.ok.injEq] at h ⊢
            refine ⟨login, code, tokens, idToken, refreshToken, verified, rfl, hexchange,
              hidToken, hrefresh, hverify, h.symm, fun id => ?_⟩
            cases previous with
            | none => rw [if_neg (Option.some_ne_none id).symm]
            | some previous =>
              rw [get_endSession]
              by_cases hid : id = previous
              · rw [if_pos hid, if_pos (by rw [hid])]
              · rw [if_neg hid, if_neg fun heq => hid (Option.some.inj heq).symm]

/-- A login that fails leaves the store as it was. -/
theorem complete_error {env : CallbackEnv} {sessionId : String} {now : DateTime} {s : Sessions}
    {pending : Option PendingLogin} {returned : Returned} {previous : Option String}
    {error : CallbackServiceError}
    (h : (complete env sessionId now s pending returned previous).result = .error error) :
    (complete env sessionId now s pending returned previous).sessions = s := by
  rw [complete] at h ⊢
  split at h <;> try rfl
  split at h <;> try rfl
  split at h <;> try rfl
  split at h <;> try rfl
  cases h

section Atomic

variable {Token Keys : Type} (openId : OpenIdConnect Token Keys) (publicUrl clientId : String)
  (keysFor : Option String → Except JwksError Keys) (env : CallbackEnv)

/-- `env`, with Hydra's id_tokens verified. -/
def CallbackEnv.verifying : CallbackEnv :=
  { env with verifyIdToken := Bff.verifyIdToken openId publicUrl clientId keysFor }

/-- **A login happens as a whole or not at all.** If `complete` fails, the store is as it was. If
it succeeds, then every check was passed, and the store has lost the previous session and those
the cap takes, and has gained, unless the cap takes it, one session, under the id that was drawn
for it, of whom the id_token names. -/
theorem complete_atomic {sessionId : String} {now : DateTime} {s : Sessions}
    {pending : Option PendingLogin} {returned : Returned} {previous : Option String}
    (hs : s.Reachable) (hnew : s.getSession sessionId = none)
    (hdigest : ∀ text, (env.digest text).length = 32)
    (hcollision : ∀ login ∈ pending, ∀ state ∈ returned.state,
      env.digest state = env.digest login.state → state = login.state) :
    let completed := complete (env.verifying openId publicUrl clientId keysFor) sessionId now s
      pending returned previous
    (∀ error, completed.result = .error error → completed.sessions = s) ∧
    ∀ started, completed.result = .ok started →
      ∃ login code tokens idToken refreshToken verified evicted,
        pending = some login ∧ returned = .code code (some login.state) ∧
        login.redirectUri ∈ env.redirectUriAllowlist ∧
        env.exchangeCode code login.verifier = .ok tokens ∧ tokens.idToken = some idToken ∧
        tokens.refreshToken = some refreshToken ∧
        AcceptedIdToken openId publicUrl clientId keysFor idToken tokens.accessToken login.nonce
          verified ∧
        started = ⟨sessionId, sessionMaxAgeSecs env.refreshTtl, login.redirectUri⟩ ∧
        s.CapTakes sessionId
          (newSession env.refreshTtl tokens refreshToken idToken verified now) evicted ∧
        ∀ id, completed.sessions.getSession id =
          if previous = some id ∨ id ∈ evicted then none
          else if id = sessionId then
            some (newSession env.refreshTtl tokens refreshToken idToken verified now)
          else s.getSession id := by
  refine ⟨fun error herror => complete_error herror, fun started hstarted => ?_⟩
  obtain ⟨login, code, tokens, idToken, refreshToken, verified, hredeem, hexchange, hidToken,
    hrefresh, hverify, rfl, hsessions⟩ := complete_ok hstarted
  obtain ⟨hpending, hallowed, state, hreturned, hmatches⟩ := redeemable_ok hredeem
  have hstate : state = login.state := by
    refine hcollision login hpending state (by rw [hreturned]; rfl) ?_
    exact (constantTimeEq_iff (by rw [hdigest, hdigest])).mp hmatches
  refine ⟨login, code, tokens, idToken, refreshToken, verified, _, hpending, hstate ▸ hreturned,
    hallowed, hexchange, hidToken, hrefresh,
    accepted_of_verifyIdToken openId publicUrl clientId keysFor hverify, rfl,
    hs.indexed.capTakes _ hnew, fun id => ?_⟩
  rw [hsessions, Sessions.get_saveSession]
  by_cases hprevious : previous = some id
  · rw [if_pos hprevious, if_pos (Or.inl hprevious)]
  · rw [if_neg hprevious]
    simp only [hprevious, false_or]
    rfl

end Atomic

namespace Sample

/-- The claims of an id_token of the user 1, for the client `bff` and the nonce `n`. -/
def payload : Json :=
  .obj [("iss", .str "https://h/"), ("sub", .str "00000000-0000-0000-0000-000000000001"),
    ("sid", .str "login"), ("aud", .arr [.str "bff"]), ("nonce", .str "n"), ("iat", .int 0),
    ("exp", .int 3600)]

/-- That id_token: its header, and its payload and signature. -/
def header : String := "eyJhbGciOiJSUzI1NiIsImtpZCI6ImsifQ"

def signed : String :=
  "eyJpc3MiOiJodHRwczovL2gvIiwic3ViIjoiMDAwMDAwMDAtMDAwMC0wMDAwLTAwMDAtMDAwMDAwMDAwMDAx" ++
    "Iiwic2lkIjoibG9naW4iLCJhdWQiOlsiYmZmIl0sIm5vbmNlIjoibiIsImlhdCI6MCwiZXhwIjozNjAwfQ" ++
    ".c2lnbmF0dXJl"

def idToken : String := header ++ "." ++ signed

/-- What the crates say of `idToken`; there is one key, and it is signed with that. -/
def openId (idToken : String) : OpenIdConnect Unit Unit where
  fromStr raw := if raw = idToken then .ok () else .error "not a JWT"
  decodePart part :=
    let parts := (idToken.toList.splitOn '.').map String.ofList
    if parts[1]? = some part then some payload
    else if parts[0]? = some part then some (.obj [("alg", .str "RS256"), ("kid", .str "k")])
    else none
  isIssuerUrl url := url = "https://h/"
  claims _ clientId issuer _ nonce :=
    if clientId = "bff" ∧ issuer = "https://h/" ∧ nonce = "n" then
      .ok ⟨"00000000-0000-0000-0000-000000000001", none⟩
    else .error "claims"
  accessTokenHash _ _ _ _ _ := .error "not asked for"
  parseStr text := if text = "00000000-0000-0000-0000-000000000001" then some 1 else none

/-- Hydra hands out `idToken`. -/
def callbackEnv (idToken : String) : CallbackEnv :=
  CallbackEnv.verifying (openId idToken) "https://h" "bff" (fun _ => .ok ()) {
    refreshTtl := Duration.days 30
    redirectUriAllowlist := ["https://app.test/"]
    digest := fun s => if s = "s" then
      [4, 58, 113, 135, 116, 197, 114, 189, 138, 37, 173, 190, 177, 191, 205, 92,
        2, 86, 174, 17, 206, 207, 159, 156, 63, 146, 93, 14, 82, 190, 175, 137]
      else List.replicate 32 0
    exchangeCode := fun _ _ => .ok ⟨"access", some "refresh", some idToken, Duration.seconds 900⟩
    verifyIdToken := fun _ _ _ => .error (.malformed "") }

theorem length_splitOn (a b : String) : 1 < ((a ++ "." ++ b).toList.splitOn '.').length := by
  have hdot : ".".toList = ['.'] := by decide +kernel
  have hpos := fun l : List Char => List.length_pos_iff.mpr (List.splitOn_ne_nil '.' l)
  rw [String.toList_append, String.toList_append, hdot, List.append_assoc, List.singleton_append,
    List.splitOn_append_cons_self, List.length_append]
  exact Nat.add_le_add (hpos _) (hpos _)

theorem unverifiedPart_openId (a b : String) :
    unverifiedPart (openId (a ++ "." ++ b)) (a ++ "." ++ b) 1 = some payload := by
  have hlength := length_splitOn a b
  simp only [unverifiedPart, openId, List.getElem?_eq_getElem hlength, List.getElem?_map,
    Option.map_some, Option.bind_some, if_true]

theorem verifyIdToken_openId (a b : String) :
    (callbackEnv (a ++ "." ++ b)).verifyIdToken (a ++ "." ++ b) "access" "n" =
      .ok ⟨1, some "login"⟩ := by
  have hsame : sameIssuer "https://h/" "https://h" = true := by decide +kernel
  have hissuer : unverifiedText (some payload) "iss" = some "https://h/" := by decide +kernel
  have hsid : unverifiedText (some payload) "sid" = some "login" := by decide +kernel
  simp only [callbackEnv, CallbackEnv.verifying, Bff.verifyIdToken, unverifiedPart_openId, hissuer,
    hsid, Option.getD_some, hsame]
  simp only [openId, checkAccessTokenHash, if_true, Bool.not_true, Bool.false_eq_true, if_false,
    decide_true, and_self]

/-- The login that `n` was drawn for. -/
def pending : PendingLogin := ⟨"s", "v", "n", "https://app.test/"⟩

/-- A session of the user 1. -/
def session (now : DateTime) : SessionData :=
  ⟨"access", "refresh", "id", now + 900, now, now + 86400, 1, none⟩

/-- A store with `ids` saved for the user 1, one after the other, at `now`. -/
def stored (ids : List String) (now : DateTime) : Sessions :=
  ids.foldl (fun s id => s.after (.saveSession id (session now))) .empty

theorem stored_concat (ids : List String) (id : String) (now : DateTime) :
    stored (ids ++ [id]) now = (stored ids now).after (.saveSession id (session now)) := by
  rw [stored, List.foldl_append]
  rfl

theorem reachable_stored (ids : List String) (now : DateTime) : (stored ids now).Reachable := by
  induction ids using List.reverseRecOn with
  | nil => exact .empty
  | append_singleton ids id ih =>
    rw [stored_concat]
    exact .call _ ih

theorem length_scan_stored {ids : List String} {now : DateTime} (hnodup : ids.Nodup)
    (hget : ∀ id, (stored ids now).getSession id = if id ∈ ids then some (session now) else none) :
    ((stored ids now).scan (.user 1)).length = ids.length := by
  rw [← List.length_map (f := Prod.fst)]
  refine ((List.perm_ext_iff_of_nodup ((stored ids now).byId.nodup_map_fst_filter _)
    hnodup).mpr fun id => ?_).length_eq
  rw [HashMap.mem_map_fst_filter]
  have hid := hget id
  rw [Sessions.getSession] at hid
  rw [hid]
  by_cases hmem : id ∈ ids <;> simp [hmem, session, SessionSelector.matches]

/-- Up to the cap, all of them are there. -/
theorem get_stored {ids : List String} (now : DateTime) (hnodup : ids.Nodup)
    (hlength : ids.length ≤ maxSessionsPerUser) (id : String) :
    (stored ids now).getSession id = if id ∈ ids then some (session now) else none := by
  induction ids using List.reverseRecOn generalizing id with
  | nil => rfl
  | append_singleton ids id' ih =>
    rw [List.length_append, List.length_singleton] at hlength
    obtain ⟨hids, -, hne⟩ := List.nodup_append.mp hnodup
    have hnotMem : id' ∉ ids := fun hmem => hne id' hmem id' (List.mem_singleton_self _) rfl
    have hget := ih hids (by omega)
    have hroom : ((stored ids now).scan (.user (session now).userId)).length
        < maxSessionsPerUser := (length_scan_stored hids hget).trans_lt hlength
    rw [stored_concat, Sessions.after, (reachable_stored ids now).indexed.get_saveSession_of_lt
      (by rw [hget, if_neg hnotMem]) hroom, hget]
    by_cases hid : id = id' <;> simp [hid]

/-- The login succeeds, whatever is stored. -/
theorem complete_pending (a b sessionId : String) (now : DateTime) (s : Sessions)
    (previous : Option String) :
    (complete (callbackEnv (a ++ "." ++ b)) sessionId now s (some pending) (.code "c" (some "s"))
      previous).result = .ok ⟨sessionId, 2592000, "https://app.test/"⟩ := by
  have hmatches : constantTimeEq (callbackEnv (a ++ "." ++ b)).digest "s" pending.state = true :=
    (constantTimeEq_iff rfl).mpr rfl
  have hredeem : redeemable (callbackEnv (a ++ "." ++ b)).digest
      (callbackEnv (a ++ "." ++ b)).redirectUriAllowlist (some pending)
      (.code "c" (some "s")) = .ok (pending, "c") := by
    simp only [redeemable, Returned.state, Option.any_some, hmatches]
    simp [callbackEnv, CallbackEnv.verifying, allowsRedirectUri, pending]
  have hage : sessionMaxAgeSecs (callbackEnv (a ++ "." ++ b)).refreshTtl = 2592000 :=
    show sessionMaxAgeSecs (Duration.days 30) = 2592000 by decide
  simp only [complete, hredeem, hage]
  simp only [show pending.nonce = "n" from rfl, verifyIdToken_openId,
    show (callbackEnv (a ++ "." ++ b)).exchangeCode "c" pending.verifier =
      .ok ⟨"access", some "refresh", some (a ++ "." ++ b), Duration.seconds 900⟩ from rfl]
  rfl

end Sample

/-- A login over the session "old" ends it, and its id_token was accepted. -/
theorem complete_atomic_sample : ∃ verified,
    AcceptedIdToken (Sample.openId Sample.idToken) "https://h" "bff" (fun _ => .ok ())
      Sample.idToken "access" "n" verified ∧
    (complete (Sample.callbackEnv Sample.idToken) "new" 1 (Sample.stored ["old"] 0)
      (some Sample.pending) (.code "c" (some "s")) (some "old")).sessions.getSession "old" =
        none := by
  have hnew : (Sample.stored ["old"] 0).getSession "new" = none := by decide +kernel
  obtain ⟨-, hok⟩ := complete_atomic (Sample.openId Sample.idToken) "https://h" "bff"
    (fun _ => .ok ()) (Sample.callbackEnv Sample.idToken) (Sample.reachable_stored ["old"] 0) hnew
    (fun text => by
      simp only [Sample.callbackEnv, CallbackEnv.verifying]
      split <;> rfl)
    (fun login (hlogin : login ∈ some Sample.pending) state
        (hstate : state ∈ (Returned.code "c" (some "s")).state) _ => by
      obtain rfl := Option.some.inj hlogin
      obtain rfl := Option.some.inj hstate
      rfl)
  obtain ⟨login, code, tokens, idToken, refreshToken, verified, evicted, hpending, -, -, hexchange,
    hidToken, -, haccepted, -, -, hsessions⟩ :=
    hok ⟨"new", 2592000, "https://app.test/"⟩
      (Sample.complete_pending Sample.header Sample.signed _ 1 _ (some "old"))
  obtain rfl := Option.some.inj hpending
  cases hexchange
  obtain rfl := Option.some.inj hidToken
  exact ⟨verified, haccepted, (hsessions "old").trans (if_pos (Or.inl rfl))⟩

/-- As many ids as a user may have sessions. -/
def Sample.ids : List String := (List.range 20).map fun n => String.ofList (List.replicate n 'x')

theorem Sample.nodup_ids : Sample.ids.Nodup := by
  refine List.nodup_range.map fun n m h => ?_
  simpa using congrArg List.length (String.ofList_injective h)

theorem Sample.new_not_mem_ids : "new" ∉ Sample.ids := by
  intro h
  obtain ⟨n, -, hn⟩ := List.mem_map.mp h
  have hmem : 'n' ∈ (String.ofList (List.replicate n 'x')).toList := by
    rw [hn]
    decide +kernel
  rw [String.toList_ofList] at hmem
  exact absurd (List.eq_of_mem_replicate hmem) (by decide)

/-- **A login may end itself.** The user has as many sessions as may be, and the clock has been set
back since. The login succeeds; the sessions are all still there, and its own is not. -/
theorem complete_evicts_itself :
    (Sample.stored Sample.ids 1).Reachable ∧
    (Sample.stored Sample.ids 1).getSession "new" = none ∧
    let completed := complete (Sample.callbackEnv Sample.idToken) "new" 0
      (Sample.stored Sample.ids 1) (some Sample.pending) (.code "c" (some "s")) none
    completed.result = .ok ⟨"new", 2592000, "https://app.test/"⟩ ∧
    completed.sessions.getSession "new" = none ∧
    ∀ id ∈ Sample.ids, (completed.sessions.getSession id).isSome = true := by
  have hget := Sample.get_stored 1 Sample.nodup_ids (by decide)
  have hscan := Sample.length_scan_stored Sample.nodup_ids hget
  have hnew : (Sample.stored Sample.ids 1).getSession "new" = none := by
    rw [hget, if_neg Sample.new_not_mem_ids]
  have hindexed := (Sample.reachable_stored Sample.ids 1).indexed
  have hresult := Sample.complete_pending Sample.header Sample.signed "new" 0
    (Sample.stored Sample.ids 1) none
  obtain ⟨login, code, tokens, idToken, refreshToken, verified, hredeem, hexchange, hidToken,
    -, hverify, -, hsessions⟩ := complete_ok hresult
  refine ⟨Sample.reachable_stored Sample.ids 1, hnew, hresult, ?_⟩
  obtain rfl : Sample.pending = login := Option.some.inj (redeemable_ok hredeem).1
  cases hexchange
  obtain rfl := Option.some.inj hidToken
  cases (Sample.verifyIdToken_openId Sample.header Sample.signed).symm.trans hverify
  generalize hdata : newSession _ _ _ _ _ _ = data at hsessions
  obtain ⟨huser, hcreated⟩ : data.userId = 1 ∧ data.createdAt = 0 := by
    rw [← hdata]
    exact ⟨rfl, rfl⟩
  -- All of the others were created later.
  have hlater : ∀ e ∈ (Sample.stored Sample.ids 1).scan (.user 1),
      data.createdAt < e.2.createdAt := by
    intro e he
    have hstored := hget e.1
    rw [Sessions.getSession, HashMap.mem_pairs.mp (List.mem_of_mem_filter he)] at hstored
    split_ifs at hstored with hid
    rw [Option.some.inj hstored, hcreated]
    decide
  have htaken : ((Sample.stored Sample.ids 1).insert "new" data).excess data.userId = ["new"] :=
    (hindexed.capTakes data hnew).eq_singleton (by rw [huser, hscan]; rfl) (by rwa [huser])
  have hleft : ∀ id, (complete (Sample.callbackEnv Sample.idToken) "new" 0
      (Sample.stored Sample.ids 1) (some Sample.pending) (.code "c" (some "s"))
      none).sessions.getSession id =
        if id = "new" then none else (Sample.stored Sample.ids 1).getSession id := by
    intro id
    rw [show Sample.idToken = Sample.header ++ "." ++ Sample.signed from rfl, hsessions,
      if_neg (Option.some_ne_none id).symm, Sessions.get_saveSession, htaken]
    by_cases hid : id = "new" <;> simp [hid]
  refine ⟨by rw [hleft, if_pos rfl], fun id hid => ?_⟩
  have hne : id ≠ "new" := by
    rintro rfl
    exact Sample.new_not_mem_ids hid
  rw [hleft, if_neg hne, hget, if_pos hid]
  rfl

end Bff

end WeaveAuth
