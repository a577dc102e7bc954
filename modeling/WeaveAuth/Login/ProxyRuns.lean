import WeaveAuth.Login.ProxyAnswer
import WeaveAuth.Login.ThrottleRate

/-!
# The proxy in use

Any number of requests on their way to Kratos at a time, each answered at most once: what Kratos
was asked, and what it said. To the throttle such a run is one of attempts (`ThrottleRuns.lean`),
so what Kratos gets to see of an identifier is as slow as those are.

## Main results

* `guess_eq`: however Kratos reads a request, the throttle has counted what it reads
* `Service.exists_follows`: a run of the proxy is one of the throttle
* `Service.guess_rate`

## What counts as a guess

A request that reaches Kratos as a submission for the identifier, for whichever `Reader` Kratos is,
and whose answer says that a password was checked. Left out are calls that failed and answers of
403, 429 or 5xx or with a redirect to `/error`, for which login gives the attempt back: of these it
takes it that no password was checked.

## Scope

The answers are Kratos' and any; what the theorem about rates asks of a run is that no answer signs
anybody in for this identifier, that its attempts are settled within the hour, and that its entry is
not evicted. All three can be told from the run.
-/

namespace WeaveAuth

namespace Login

open Transition

/-! ### What Kratos reads -/

section Guess

variable (env : LoginEnv) (r : Reader)

/-- The text that a reader finds in a request's body under one of the names. -/
def Reader.read (names : List (List Char)) (headers : HeaderMap) (body : List ℕ) :
    Option (List Char) :=
  if isForm headers then r.readForm names (FormUrlencoded.parse body)
  else
    match env.fromSlice body with
    | some (.obj members) => ((r.readJson names members).bind Bff.Json.asStr).map String.toList
    | _ => none

/-- The identifier whose password a submission tries. -/
def Reader.guessed (headers : HeaderMap) (body : List ℕ) : Option Key :=
  (LoginFields.throttledIdentifier ⟨r.read env methodNames headers body,
    r.read env identifierNames headers body, false⟩).map (Key.of env.digest env.toLowercase)

end Guess

/-- A request that Kratos was asked. -/
structure Asked where
  uri : Uri
  request : Request Url (List ℕ)
  attempt : Option Key
  askedAt : Instant
  /-- What came of it: Kratos' answer, or none where the call failed. -/
  reply : Option (Option Answer)

/-- The identifier whose password Kratos is asked to check, if it takes the path for the one of the
login submission and reads the body as `r` does. -/
def Asked.guess (env : LoginEnv) (r : Reader) (asked : Asked) : Option Key :=
  if asked.request.method = .post ∧ normalized asked.uri.path = loginSubmitPath then
    r.guessed env asked.request.headers asked.request.body
  else none

section Reads

variable {env : LoginEnv} {r : Reader} {headers : HeaderMap} {body : List ℕ}
  {throttle throttle' : LoginThrottle} {now : Instant} {attempt : Option Key}

/-- A submission that is let past is read alike by all. -/
theorem read_eq (h : (loginAttempt env headers body throttle now).1 = .ok attempt) :
    ∃ fields : LoginFields, 
      attempt = fields.throttledIdentifier.map (Key.of env.digest env.toLowercase) ∧
      r.read env methodNames headers body = fields.method ∧
      r.read env identifierNames headers body = fields.identifier := by
  obtain ⟨fields, hfields, hrepeated, hattempt, -⟩ := loginAttempt_ok h
  refine ⟨fields, hattempt, ?_⟩
  rw [loginFields] at hfields
  split_ifs at hfields with hform
  · obtain rfl := Except.ok.inj hfields
    obtain ⟨-, hmethod, hidentifier⟩ := LoginFields.values_foldl_set hrepeated
    simp only [Reader.read, hform, if_true]
    exact ⟨r.readForm_eq hmethod.symm, r.readForm_eq hidentifier.symm⟩
  · obtain ⟨members, hmembers, hvisit⟩ := LoginFields.fromJson_ok hfields
    obtain ⟨hpasses, rfl⟩ := LoginFields.visitMap_eq_some hvisit
    obtain ⟨-, hmethod, hidentifier⟩ := LoginFields.values_foldl_set hrepeated
    have htext : ∀ text : Option (List Char),
        ((text.map Reader.ofText).bind Bff.Json.asStr).map String.toList = text := by
      intro text
      cases text <;> simp [Reader.ofText, Bff.Json.asStr]
    have hkeys := LoginFields.keys_eq
    simp only [Reader.read, hform, hmembers]
    rw [r.readJson_eq (fun name hname => hkeys ▸ List.mem_append_left _ hname) hpasses hmethod.symm,
      r.readJson_eq (fun name hname => hkeys ▸ List.mem_append_right _ hname) hpasses
        hidentifier.symm]
    exact ⟨htext _, htext _⟩

theorem guessed_eq (h : (loginAttempt env headers body throttle now).1 = .ok attempt) :
    r.guessed env headers body = attempt := by
  obtain ⟨fields, hattempt, hmethod, hidentifier⟩ := @read_eq env r _ _ _ _ _ h
  rw [Reader.guessed, hmethod, hidentifier, hattempt]
  rfl

end Reads

/-- The content type gets to Kratos. -/
theorem get_contentType_forwardRequest (method : Method) (url : Url) (headers : HeaderMap)
    (clientIp : Option (List Char)) (body : List ℕ) :
    (forwardRequest method url headers clientIp body).headers.get .contentType =
      headers.get .contentType := by
  have hforwarded : forwardedRequestHeaders.Nodup := by decide
  have hsame := Bff.getAll_foldl_allowed headers ∅ hforwarded .contentType
  rw [if_pos (by decide)] at hsame
  unfold forwardRequest
  simp only [HeaderMap.get]
  congr 1
  split
  · rw [HeaderMap.getAll_append, if_neg (by decide), List.append_nil]
    exact hsame
  · exact hsame

/-! ### Requests and answers -/

/-- What an attempt is settled with. -/
def settling (answers : AnswerEnv) : Option Answer → Outcome
  | some answer => outcome answers answer
  | none => .notAnAttempt

/-- The throttle, what Kratos was asked, and the clock. -/
structure Service where
  throttle : LoginThrottle
  asked : List Asked
  now : Instant

def Service.start : Service := ⟨⟨∅⟩, [], 0⟩

inductive ProxyEvent where
  | request (method : Method) (uri : Uri) (clientIp : Option (List Char)) (headers : HeaderMap)
      (body : List ℕ) (now : Instant)
  /-- Kratos answers a request, given by its number, or the call fails. -/
  | reply (i : ℕ) (reply : Option Answer) (now : Instant)
  | sweep (now : Instant)
  /-- The entries come to be iterated in another order. -/
  | rehash (entries : HashMap Key Entry)

/-- What the throttle says to a request. -/
def admission (env : LoginEnv) (throttle : LoginThrottle) (now : Instant) (method : Method)
    (uri : Uri) (headers : HeaderMap) (body : List ℕ) :
    Except Refusal (Option Key) × LoginThrottle :=
  if method = .post ∧ uri.path = loginSubmitPath then loginAttempt env headers body throttle now
  else (.ok none, throttle)

namespace Service

variable (env : ProxyEnv) (answers : AnswerEnv)

/-- `proxy` has come to the point where Kratos is asked, or has answered. -/
def taken (s : Service) (uri : Uri) (now : Instant) : Proxied × LoginThrottle → Service
  | (.requested request attempt, throttle) =>
    ⟨throttle, s.asked ++ [⟨uri, request, attempt, now, none⟩], now⟩
  | (.refused _, throttle) | (.throttled _, throttle) => ⟨throttle, s.asked, now⟩

def step (s : Service) : ProxyEvent → Option Service
  | .request method uri clientIp headers body now =>
    if now < s.now then none
    else some (s.taken uri now (proxy env s.throttle now method uri clientIp headers body))
  | .reply i reply now =>
    if now < s.now then none
    else
      match s.asked[i]? with
      | none => none
      | some asked =>
        if asked.reply.isSome then none
        else
          let throttle := match asked.attempt with
            | some key => s.throttle.settle key (settling answers reply)
            | none => s.throttle
          some ⟨throttle, s.asked.set i { asked with reply := some reply }, now⟩
  | .sweep now => if now < s.now then none else some ⟨s.throttle.sweep now, s.asked, now⟩
  | .rehash entries =>
    if s.throttle.entries.entries.entries.Perm entries.entries.entries then
      some { s with throttle := ⟨entries⟩ }
    else none

/-- If it is for `key`, what a request is answered with signs nobody in, and comes soon after it was
asked. -/
def Fails (key : Key) (reply : Option Answer) (now : Instant) (asked : Asked) : Prop :=
  asked.attempt = some key →
    (∀ answer ∈ reply, setsSession answer.headers answers.sessionCookie = false) ∧
    now < asked.askedAt + forgetAfter

instance (key : Key) (reply : Option Answer) (now : Instant) (asked : Asked) :
    Decidable (Fails answers key reply now asked) :=
  inferInstanceAs (Decidable (asked.attempt = some key → _ ∧ _))

/-- The entry of `key` is not evicted, and no guess for it is right. -/
def Unaided (key : Key) (s : Service) : ProxyEvent → Prop
  | .request method uri _ headers body now => s.throttle.entries.get key ≠ none →
      (admission env.login s.throttle now method uri headers body).2.entries.get key ≠ none
  | .reply i reply now => ∀ asked ∈ s.asked[i]?, Fails answers key reply now asked
  | .sweep _ | .rehash _ => True

instance (key : Key) (s : Service) : (e : ProxyEvent) → Decidable (Unaided env answers key s e)
  | .request method uri _ headers body now => inferInstanceAs (Decidable
      (s.throttle.entries.get key ≠ none →
        (admission env.login s.throttle now method uri headers body).2.entries.get key ≠ none))
  | .reply i reply now =>
    inferInstanceAs (Decidable (∀ asked ∈ s.asked[i]?, Fails answers key reply now asked))
  | .sweep _ | .rehash _ => inferInstanceAs (Decidable True)

end Service

/-- When Kratos was asked to check a password for `key`, as `r` reads what it was asked, less what
it answered without a check and the calls that failed. -/
def guesses (env : LoginEnv) (answers : AnswerEnv) (r : Reader) (key : Key) (asked : List Asked) :
    List Instant :=
  (asked.filter fun a => a.guess env r = some key ∧
    ∀ reply ∈ a.reply, ∃ answer ∈ reply, ¬Unchecked answers answer).map Asked.askedAt

/-! ### What a request does to the throttle -/

section Takes

variable {env : ProxyEnv} {throttle throttle' : LoginThrottle} {now : Instant} {method : Method}
  {uri : Uri} {clientIp : Option (List Char)} {headers : HeaderMap} {body : List ℕ}
  {proxied : Proxied} {attempt : Except Refusal (Option Key)}

/-- What `login_attempt` does to the throttle. -/
inductive Attempts (throttle : LoginThrottle) (now : Instant) :
    Except Refusal (Option Key) → LoginThrottle → Prop where
  | refused (refusal : Refusal) : Attempts throttle now (.error refusal) throttle
  | none : Attempts throttle now (.ok none) throttle
  | admitted {key : Key} {throttle' : LoginThrottle}
      (h : throttle.admitKey key now = (.admitted, throttle')) :
      Attempts throttle now (.ok (some key)) throttle'

theorem attempts_of_loginAttempt {env : LoginEnv}
    (h : loginAttempt env headers body throttle now = (attempt, throttle')) :
    Attempts throttle now attempt throttle' := by
  rw [loginAttempt] at h
  split at h
  · obtain ⟨rfl, rfl⟩ := Prod.mk.inj h
    exact .refused _
  · split_ifs at h
    · obtain ⟨rfl, rfl⟩ := Prod.mk.inj h
      exact .refused _
    · split at h
      · obtain ⟨rfl, rfl⟩ := Prod.mk.inj h
        exact .none
      · dsimp only at h
        split at h
        · next throttle'' hanswer =>
          obtain ⟨rfl, rfl⟩ := Prod.mk.inj h
          exact .admitted hanswer
        · next remaining throttle'' hanswer =>
          obtain ⟨rfl, rfl⟩ := Prod.mk.inj h
          obtain rfl := LoginThrottle.eq_of_wait (LoginThrottle.admits_of_eq hanswer)
          exact .refused _

theorem attempts_of_admission {env : LoginEnv}
    (h : admission env throttle now method uri headers body = (attempt, throttle')) :
    Attempts throttle now attempt throttle' := by
  rw [admission] at h
  split_ifs at h
  · exact attempts_of_loginAttempt h
  · obtain ⟨rfl, rfl⟩ := Prod.mk.inj h
    exact .none

/-- What `proxy` does to the throttle, where the one after `login_attempt` is `passed`. -/
inductive Takes (throttle : LoginThrottle) (now : Instant) (passed : LoginThrottle) :
    Proxied → LoginThrottle → Prop where
  | refused (status : ℕ) : Takes throttle now passed (.refused status) throttle
  | throttled (remaining : ℕ) : Takes throttle now passed (.throttled remaining) throttle
  | requested (request : Request Url (List ℕ)) :
      Takes throttle now passed (.requested request none) throttle
  | admitted {key : Key} (h : throttle.admitKey key now = (.admitted, passed))
      (request : Request Url (List ℕ)) :
      Takes throttle now passed (.requested request (some key)) passed
  /-- The URL for Kratos cannot be built. -/
  | lost {key : Key} (h : throttle.admitKey key now = (.admitted, passed)) :
      Takes throttle now passed (.refused 502) passed
  | givenBack {key : Key} (h : throttle.admitKey key now = (.admitted, passed)) :
      Takes throttle now passed (.refused 502) (passed.settle key .notAnAttempt)

theorem takes_proxy
    (h : proxy env throttle now method uri clientIp headers body = (proxied, throttle')) :
    Takes throttle now (admission env.login throttle now method uri headers body).2 proxied
      throttle' := by
  rw [proxy] at h
  split at h
  · obtain ⟨rfl, rfl⟩ := Prod.mk.inj h
    exact .refused 404
  · rw [← admission] at h
    rcases hadmission : admission env.login throttle now method uri headers body with
      ⟨attempt, passed⟩
    rw [hadmission] at h
    dsimp only at h ⊢
    cases attempts_of_admission hadmission with
    | refused refusal =>
      cases refusal <;> obtain ⟨rfl, rfl⟩ := Prod.mk.inj h
      · exact .refused 415
      · exact .refused 400
      · exact .throttled _
    | none =>
      dsimp only at h
      split at h
      · obtain ⟨rfl, rfl⟩ := Prod.mk.inj h
        exact .refused 502
      · split_ifs at h <;> obtain ⟨rfl, rfl⟩ := Prod.mk.inj h
        · exact .requested _
        · exact .refused 502
    | admitted hanswer =>
      dsimp only at h
      split at h
      · obtain ⟨rfl, rfl⟩ := Prod.mk.inj h
        exact .lost hanswer
      · split_ifs at h
        · obtain ⟨rfl, rfl⟩ := Prod.mk.inj h
          exact .admitted hanswer _
        · obtain ⟨rfl, rfl⟩ := Prod.mk.inj h
          exact .givenBack hanswer

/-- What Kratos is asked, and with which attempt. -/
theorem requested_eq {request : Request Url (List ℕ)} {attempt : Option Key}
    (h : proxy env throttle now method uri clientIp headers body =
      (.requested request attempt, throttle')) :
    (admission env.login throttle now method uri headers body).1 = .ok attempt ∧
    ∃ url, request = forwardRequest method url headers clientIp body := by
  rw [proxy] at h
  split at h
  · cases h
  · rw [← admission] at h
    rcases hadmission : admission env.login throttle now method uri headers body with
      ⟨attempt', passed⟩
    rw [hadmission] at h
    dsimp only at h
    split at h
    case h_4 =>
      split at h
      · cases h
      · next url hurl =>
        split at h
        · obtain ⟨heq, rfl⟩ := Prod.mk.inj h
          obtain ⟨rfl, rfl⟩ := Proxied.requested.inj heq
          exact ⟨rfl, url, rfl⟩
        · split at h <;> cases h
    all_goals cases h

theorem isForm_congr {headers headers' : HeaderMap}
    (h : headers.get .contentType = headers'.get .contentType) :
    isForm headers = isForm headers' := by
  rw [isForm, isForm, contentType, contentType, h]

/-- **However Kratos reads a request, the throttle has counted what it reads.** -/
theorem guess_eq {r : Reader} {request : Request Url (List ℕ)} {attempt : Option Key}
    (h : proxy env throttle now method uri clientIp headers body =
      (.requested request attempt, throttle')) (reply : Option (Option Answer)) :
    Asked.guess env.login r ⟨uri, request, attempt, now, reply⟩ = attempt := by
  obtain ⟨hclean, hvariant, -⟩ := proxy_requested h
  obtain ⟨hadmission, url, rfl⟩ := requested_eq h
  -- A path that Kratos would take for the one of the submission is that path.
  have hsubmit : method = .post → (normalized uri.path = loginSubmitPath ↔
      uri.path = loginSubmitPath) := by
    intro hpost
    have hsame := hvariant hpost
    rw [normalized_eq hclean]
    rw [isLoginSubmitVariant, eqIgnoreAsciiCase, lowercase_loginSubmitPath] at hsame
    refine ⟨fun heq => by simpa [heq] using hsame, fun heq => ?_⟩
    rw [heq]
    decide +kernel
  have hread : ∀ names, r.read env.login names
      (forwardRequest method url headers clientIp body).headers
      (forwardRequest method url headers clientIp body).body =
        r.read env.login names headers body := by
    intro names
    unfold Reader.read
    rw [isForm_congr (get_contentType_forwardRequest method url headers clientIp body)]
    rfl
  have hguessed : r.guessed env.login (forwardRequest method url headers clientIp body).headers
      (forwardRequest method url headers clientIp body).body =
        r.guessed env.login headers body := by
    rw [Reader.guessed, Reader.guessed, hread, hread]
  have hmethod : (forwardRequest method url headers clientIp body).method = method := rfl
  rw [Asked.guess, hmethod, hguessed]
  rw [admission] at hadmission
  by_cases hpost : method = .post ∧ uri.path = loginSubmitPath
  · rw [if_pos hpost] at hadmission
    rw [if_pos ⟨hpost.1, (hsubmit hpost.1).mpr hpost.2⟩]
    exact guessed_eq hadmission
  · rw [if_neg hpost] at hadmission
    rw [if_neg fun hnormal => hpost ⟨hnormal.1, (hsubmit hnormal.1).mp hnormal.2⟩]
    exact Except.ok.inj hadmission

end Takes

/-! ### A run of the throttle -/

/-- Of an attempt, all but whether a success came after it. -/
def Attempt.view (attempt : Attempt) : Key × Instant × Option Outcome :=
  (attempt.key, attempt.admittedAt, attempt.outcome)

def Asked.view (answers : AnswerEnv) (asked : Asked) : Option (Key × Instant × Option Outcome) :=
  asked.attempt.map fun key => (key, asked.askedAt, asked.reply.map (settling answers))

theorem view_supersede (key : Key) (attempt : Attempt) :
    (attempt.supersede key).view = attempt.view := by
  unfold Attempt.supersede
  split_ifs <;> rfl

/-- Settling an attempt changes its outcome, and no other's. -/
theorem view_settled {attempts before after : List Attempt} {attempt : Attempt}
    (hattempts : attempts = before ++ attempt :: after) (outcome : Outcome) :
    (settled attempts before.length attempt outcome).map Attempt.view =
      before.map Attempt.view ++ (attempt.key, attempt.admittedAt, some outcome) ::
        after.map Attempt.view := by
  have hset : (attempts.set before.length (attempt.settle outcome)).map Attempt.view =
      before.map Attempt.view ++ (attempt.key, attempt.admittedAt, some outcome) ::
        after.map Attempt.view := by
    rw [hattempts]
    simp [Attempt.view, Attempt.settle]
  rw [settled]
  split_ifs
  · rw [List.map_map, ← hset]
    exact List.map_congr_left fun attempt _ => view_supersede _ attempt
  · exact hset

/-- One of the attempts that a part of is known. -/
theorem sublist_middle {α β : Type*} {f : α → β} {l : List α} {before after : List β} {b : β}
    (h : (before ++ b :: after).Sublist (l.map f)) : ∃ l₁ a l₂, l = l₁ ++ a :: l₂ ∧ f a = b ∧
      before.Sublist (l₁.map f) ∧ after.Sublist (l₂.map f) := by
  obtain ⟨front, back, hl, hfront, hback⟩ := List.append_sublist_iff.mp h
  obtain ⟨skipped, rest, rfl, hmem, hrest⟩ := List.cons_sublist_iff.mp hback
  obtain ⟨skipped₁, skipped₂, rfl⟩ := List.append_of_mem hmem
  have hsplit : l.map f = (front ++ skipped₁) ++ b :: (skipped₂ ++ rest) := by simp [hl]
  obtain ⟨l₁, l', rfl, hl₁, hl'⟩ := List.map_eq_append_iff.mp hsplit
  obtain ⟨a, l₂, rfl, hab, hl₂⟩ := List.map_eq_cons_iff.mp hl'
  refine ⟨l₁, a, l₂, rfl, hab, ?_, ?_⟩
  · rw [hl₁]
    exact hfront.trans (List.sublist_append_left front skipped₁)
  · rw [hl₂]
    exact hrest.trans (List.sublist_append_right skipped₂ rest)

/-- The throttle has the attempts of the requests, and may have more that never became one. -/
structure Follows (answers : AnswerEnv) (s : Service) (w : World) : Prop where
  throttle : w.throttle = s.throttle
  now : w.now ≤ s.now
  attempts : (s.asked.filterMap (Asked.view answers)).Sublist (w.attempts.map Attempt.view)

namespace Service

variable {env : ProxyEnv} {answers : AnswerEnv} {s s' : Service} {w : World} {key : Key}
  {e : ProxyEvent}

/-- A state of the throttle that a run of it goes on to. -/
abbrev Later (key : Key) (w w' : World) : Prop :=
  Reaches World.step (fun w e => World.NotEvicted key w e ∧ World.SettledSoon key w e) w w'

/-- The throttle admits an attempt. -/
theorem later_admitted {key' : Key} {now : Instant} {passed : LoginThrottle} (hnow : w.now ≤ now)
    (hanswer : w.throttle.admitKey key' now = (.admitted, passed))
    (hevicted : w.throttle.entries.get key ≠ none → passed.entries.get key ≠ none) :
    Later key w ⟨passed, w.attempts ++ [⟨key', now, none, false⟩], now⟩ := by
  refine Reaches.refl.tail (e := .admitKey key' now) ⟨fun hget => ?_, trivial⟩ ?_
  · rw [hanswer]
    exact hevicted hget
  · rw [World.step, if_neg (not_lt.mpr hnow), hanswer]
    rfl

/-- An attempt is settled. -/
theorem later_settled (outcome : Outcome) {before after : List Attempt} {attempt : Attempt}
    {now : Instant} (hnow : w.now ≤ now) (hattempts : w.attempts = before ++ attempt :: after)
    (hopen : attempt.outcome = none)
    (hsoon : attempt.key = key → outcome ≠ .succeeded ∧ now < attempt.admittedAt + forgetAfter) :
    Later key w ⟨w.throttle.settle attempt.key outcome,
      settled w.attempts before.length attempt outcome, now⟩ := by
  have hget : w.attempts[before.length]? = some attempt := by rw [hattempts]; simp
  refine Reaches.refl.tail (e := .settle before.length outcome now) ⟨trivial, ?_⟩ ?_
  · intro attempt' hattempt'
    rw [hget] at hattempt'
    obtain rfl := Option.some.inj hattempt'
    exact hsoon
  · simp [World.step, not_lt.mpr hnow, hget, hopen]

/-- A request that Kratos is asked, or that comes to nothing. -/
theorem follows_request (h : Follows answers s w) {uri : Uri} {now : Instant} (hnow : s.now ≤ now)
    {proxied : Proxied} {passed throttle' : LoginThrottle}
    (htakes : Takes s.throttle now passed proxied throttle')
    (hevicted : s.throttle.entries.get key ≠ none → passed.entries.get key ≠ none) :
    ∃ w', Later key w w' ∧ Follows answers (s.taken uri now (proxied, throttle')) w' := by
  have hlater := h.now.trans hnow
  rw [← h.throttle] at htakes hevicted
  have hmore : ∀ attempt : Attempt, (s.asked.filterMap (Asked.view answers)).Sublist
      ((w.attempts ++ [attempt]).map Attempt.view) := fun attempt => by
    rw [List.map_append]
    exact h.attempts.trans (List.sublist_append_left _ _)
  cases htakes with
  | refused status => exact ⟨w, .refl, rfl, hlater, h.attempts⟩
  | throttled remaining => exact ⟨w, .refl, rfl, hlater, h.attempts⟩
  | requested request =>
    refine ⟨w, .refl, rfl, hlater, ?_⟩
    rw [taken, List.filterMap_append, List.filterMap_cons_none rfl, List.filterMap_nil,
      List.append_nil]
    exact h.attempts
  | @admitted key' hanswer request =>
    refine ⟨_, later_admitted hlater hanswer hevicted, rfl, le_rfl, ?_⟩
    simp only [taken, List.filterMap_append, List.map_append]
    exact h.attempts.append (List.Sublist.refl _)
  | @lost key' hanswer =>
    exact ⟨_, later_admitted hlater hanswer hevicted, rfl, le_rfl, hmore _⟩
  | @givenBack key' hanswer =>
    have hadmitted := later_admitted hlater hanswer hevicted
    refine ⟨_, hadmitted.trans (later_settled .notAnAttempt le_rfl rfl rfl
      fun _ => ⟨by decide, Nat.lt_add_of_pos_right (by decide)⟩), rfl, le_rfl, ?_⟩
    rw [settled_of_ne rfl (by decide)]
    simp only [taken, List.map_append]
    exact h.attempts.trans (List.sublist_append_left _ _)

/-- An answer. -/
theorem follows_reply (h : Follows answers s w) {before after : List Asked} {asked : Asked}
    (hasked : s.asked = before ++ asked :: after) (hopen : asked.reply = none)
    {reply : Option Answer} {now : Instant} (hnow : s.now ≤ now)
    (hsoon : asked.attempt = some key → settling answers reply ≠ .succeeded ∧
      now < asked.askedAt + forgetAfter) {throttle' : LoginThrottle}
    (hthrottle : throttle' = asked.attempt.elim s.throttle fun key =>
      s.throttle.settle key (settling answers reply)) :
    ∃ w', Later key w w' ∧ Follows answers
      ⟨throttle', before ++ { asked with reply := some reply } :: after, now⟩ w' := by
  have hlater := h.now.trans hnow
  have hattempts := h.attempts
  rw [hasked, List.filterMap_append] at hattempts
  rcases Option.eq_none_or_eq_some asked.attempt with hattempt | ⟨key', hattempt⟩
  · refine ⟨w, .refl, ?_, hlater, ?_⟩
    · rw [hthrottle, hattempt]
      exact h.throttle
    · have hview : ∀ reply, ({ asked with reply } : Asked).view answers = none := fun _ => by
        rw [Asked.view, hattempt]
        rfl
      rw [List.filterMap_cons_none (hview asked.reply)] at hattempts
      rw [List.filterMap_append, List.filterMap_cons_none (hview (some reply))]
      exact hattempts
  · have hview : asked.view answers = some (key', asked.askedAt, none) := by
      simp [Asked.view, hattempt, hopen]
    rw [List.filterMap_cons_some hview] at hattempts
    obtain ⟨earlier, attempt, later, hw, heq, hearlier, hlaterViews⟩ := sublist_middle hattempts
    obtain ⟨hkey, hrest⟩ := Prod.mk.inj heq
    obtain ⟨hadmitted, houtcome⟩ := Prod.mk.inj hrest
    refine ⟨_, later_settled (settling answers reply) hlater hw houtcome fun hkey' => ?_, ?_,
      le_rfl, ?_⟩
    · rw [hadmitted]
      exact hsoon (by rw [hattempt, ← hkey, hkey'])
    · rw [hthrottle, hattempt, hkey, h.throttle]
      rfl
    · have hview' : ({ asked with reply := some reply } : Asked).view answers =
          some (attempt.key, attempt.admittedAt, some (settling answers reply)) := by
        simp [Asked.view, hattempt, hkey, hadmitted]
      rw [List.filterMap_append, List.filterMap_cons_some hview', view_settled hw]
      exact hearlier.append (hlaterViews.cons_cons _)

theorem follows_step (h : Follows answers s w) (hok : Unaided env answers key s e)
    (hs : s.step env answers e = some s') : ∃ w', Later key w w' ∧ Follows answers s' w' := by
  cases e with
  | request method uri clientIp headers body now =>
    obtain ⟨hnow, hs⟩ := Option.ite_none_left_eq_some.mp hs
    obtain rfl := Option.some.inj hs
    exact follows_request h (not_lt.mp hnow) (takes_proxy rfl) hok
  | reply i reply now =>
    obtain ⟨hnow, hs⟩ := Option.ite_none_left_eq_some.mp hs
    split at hs
    · cases hs
    · next asked hget =>
      obtain ⟨hopen, hs⟩ := Option.ite_none_left_eq_some.mp hs
      obtain rfl := Option.some.inj hs
      obtain ⟨hi, hasked⟩ := List.getElem?_eq_some_iff.mp hget
      have hsplit : s.asked = s.asked.take i ++ asked :: s.asked.drop (i + 1) := by
        rw [← hasked, List.getElem_cons_drop, List.take_append_drop]
      have hset : s.asked.set i { asked with reply := some reply } =
          s.asked.take i ++ { asked with reply := some reply } :: s.asked.drop (i + 1) :=
        List.set_eq_take_cons_drop _ hi
      rw [hset]
      refine follows_reply h hsplit (by simpa using hopen) (not_lt.mp hnow) (fun hattempt => ?_) ?_
      · obtain ⟨hunsigned, hsoon⟩ := hok asked hget hattempt
        refine ⟨fun hsucceeded => ?_, hsoon⟩
        cases reply with
        | none => cases hsucceeded
        | some answer =>
          have hsets := outcome_cases.1 hsucceeded
          rw [hunsigned answer rfl] at hsets
          cases hsets
      · cases asked.attempt <;> rfl
  | sweep now =>
    obtain ⟨hnow, hs⟩ := Option.ite_none_left_eq_some.mp hs
    obtain rfl := Option.some.inj hs
    have hlater := h.now.trans (not_lt.mp hnow)
    refine ⟨⟨w.throttle.sweep now, w.attempts, now⟩,
      Reaches.refl.tail (e := .sweep now) ⟨trivial, trivial⟩ ?_, ?_, le_rfl, h.attempts⟩
    · exact if_neg (not_lt.mpr hlater)
    · rw [h.throttle]
  | rehash entries =>
    obtain ⟨hperm, hs⟩ := Option.ite_none_right_eq_some.mp hs
    obtain rfl := Option.some.inj hs
    rw [← h.throttle] at hperm
    exact ⟨{ w with throttle := ⟨entries⟩ }, Reaches.refl.tail (e := .rehash entries)
      ⟨trivial, trivial⟩ (if_pos hperm), rfl, h.now, h.attempts⟩

/-- **A run of the proxy is one of the throttle.** -/
theorem exists_follows (h : Reaches (step env answers) (Unaided env answers key) start s) :
    ∃ w, Later key World.start w ∧ Follows answers s w := by
  refine h.invariant (P := fun s => ∃ w, Later key World.start w ∧ Follows answers s w)
    ⟨World.start, .refl, rfl, le_rfl, .refl _⟩ ?_
  rintro s e s' ⟨w, hreaches, hfollows⟩ hok hs
  obtain ⟨w', hlater, hfollows'⟩ := follows_step hfollows hok hs
  exact ⟨w', hreaches.trans hlater, hfollows'⟩

/-! ### What Kratos was asked -/

/-- Requests are kept as what Kratos reads of them. -/
def Read (env : LoginEnv) (r : Reader) (s : Service) : Prop :=
  ∀ asked ∈ s.asked, asked.guess env r = asked.attempt

theorem read_step {r : Reader} (h : s.Read env.login r) (hs : s.step env answers e = some s') :
    s'.Read env.login r := by
  cases e with
  | request method uri clientIp headers body now =>
    obtain ⟨-, hs⟩ := Option.ite_none_left_eq_some.mp hs
    obtain rfl := Option.some.inj hs
    rcases hproxy : proxy env s.throttle now method uri clientIp headers body with
      ⟨proxied, throttle⟩
    cases proxied with
    | requested request attempt =>
      intro asked hasked
      rcases List.mem_append.mp hasked with hold | hnew
      · exact h asked hold
      · rw [List.mem_singleton.mp hnew]
        exact guess_eq hproxy none
    | refused status => exact h
    | throttled remaining => exact h
  | reply i reply now =>
    obtain ⟨-, hs⟩ := Option.ite_none_left_eq_some.mp hs
    split at hs
    · cases hs
    · next asked hget =>
      obtain ⟨-, hs⟩ := Option.ite_none_left_eq_some.mp hs
      obtain rfl := Option.some.inj hs
      intro asked' hasked'
      rcases List.mem_or_eq_of_mem_set hasked' with hold | rfl
      · exact h asked' hold
      · exact h asked (List.mem_of_getElem? hget)
  | sweep now =>
    obtain ⟨-, hs⟩ := Option.ite_none_left_eq_some.mp hs
    obtain rfl := Option.some.inj hs
    exact h
  | rehash entries =>
    obtain ⟨-, hs⟩ := Option.ite_none_right_eq_some.mp hs
    obtain rfl := Option.some.inj hs
    exact h

/-- An attempt is given back by a call that fails or an answer without a check. -/
theorem settled_notAnAttempt_iff (reply : Option (Option Answer)) :
    reply.map (settling answers) ≠ some .notAnAttempt ↔
      ∀ reply' ∈ reply, ∃ answer ∈ reply', ¬Unchecked answers answer := by
  rcases reply with _ | _ | answer
  · simp
  · simp [settling]
  · simp [settling, outcome_cases.2]

/-- What is kept, in terms of the views. -/
theorem kept_eq_views (key : Key) (attempts : List Attempt) :
    kept key attempts = ((attempts.map Attempt.view).filter fun view =>
      view.1 = key ∧ view.2.2 ≠ some .notAnAttempt).map fun view => view.2.1 := by
  rw [kept, List.filter_map, List.map_map]
  rfl

theorem guesses_eq_views {env : LoginEnv} {r : Reader} {asked : List Asked}
    (hread : ∀ a ∈ asked, a.guess env r = a.attempt) :
    guesses env answers r key asked = ((asked.filterMap (Asked.view answers)).filter fun view =>
      view.1 = key ∧ view.2.2 ≠ some .notAnAttempt).map fun view => view.2.1 := by
  induction asked with
  | nil => rfl
  | cons a asked ih =>
    obtain ⟨ha, hasked⟩ := List.forall_mem_cons.mp hread
    have ih := ih hasked
    rw [guesses] at ih ⊢
    rcases Option.eq_none_or_eq_some a.attempt with hnone | ⟨key', hkey'⟩
    · have hview : a.view answers = none := by rw [Asked.view, hnone]; rfl
      rw [List.filterMap_cons_none hview, ← ih, List.filter_cons_of_neg]
      simp [ha, hnone]
    · have hview : a.view answers =
          some (key', a.askedAt, a.reply.map (settling answers)) := by
        rw [Asked.view, hkey']
        rfl
      have hiff : (a.guess env r = some key ∧
          ∀ reply ∈ a.reply, ∃ answer ∈ reply, ¬Unchecked answers answer) ↔
          key' = key ∧ a.reply.map (settling answers) ≠ some .notAnAttempt := by
        rw [settled_notAnAttempt_iff, ha, hkey', Option.some.injEq]
      rw [List.filterMap_cons_some hview]
      by_cases hkept : key' = key ∧ a.reply.map (settling answers) ≠ some .notAnAttempt
      · rw [List.filter_cons, if_pos (decide_eq_true (hiff.mpr hkept)), List.filter_cons,
          if_pos (decide_eq_true hkept), List.map_cons, List.map_cons, ih]
      · rw [List.filter_cons, if_neg (by simpa only [decide_eq_true_eq, hiff] using hkept),
          List.filter_cons, if_neg (by simpa only [decide_eq_true_eq] using hkept), ih]

/-- What Kratos has been asked to check is among the attempts that are kept. -/
theorem guesses_sublist {r : Reader} (hread : s.Read env.login r) (h : Follows answers s w) :
    (guesses env.login answers r key s.asked).Sublist (kept key w.attempts) := by
  rw [guesses_eq_views hread, kept_eq_views]
  exact (h.attempts.filter _).map _

/-- **How fast Kratos can be asked to check a password.** In a run in which no answer signs anybody
in with an identifier, those to its attempts come within the hour, and its entry is not evicted:
any six or more of the submissions that make Kratos check a password for it, each within an hour of
the one before, take half a minute for each of the second five and five minutes for each beyond,
however many are under way at a time, however Kratos takes paths and reads bodies. -/
theorem guess_rate (r : Reader)
    (h : Reaches (step env answers) (Unaided env answers key) start s) {times : List Instant}
    (hsub : times.Sublist (guesses env.login answers r key s.asked)) (hn : 6 ≤ times.length)
    (hsoon : Soon times) : ∀ first ∈ times.head?, ∀ last ∈ times.getLast?,
      fromSecs (30 * (min times.length 10 - 5) + 300 * (times.length - 10)) ≤ last - first := by
  have hread : s.Read env.login r := h.invariant (fun _ hasked => absurd hasked List.not_mem_nil)
    fun _ _ _ hread _ hs => read_step hread hs
  obtain ⟨w, hreaches, hfollows⟩ := exists_follows h
  have hpaced : w.Paced key := hreaches.invariant (World.paced_start key)
    fun _ _ _ hpaced hok hs => World.paced_step hpaced hok.1 hok.2 hs
  intro first hfirst last hlast
  rw [← minSpan_eq hn]
  exact Nat.le_sub_of_add_le'
    (hpaced.span times (hsub.trans (guesses_sublist hread hfollows)) hsoon first hfirst last hlast)

end Service

namespace Sample

def proxyEnv : ProxyEnv := ⟨loginEnv, rules, kratos⟩

def answers : AnswerEnv where
  rules := rules
  ownOrigin := ⟨"http".toList, [], [], some ['l'], none, .segments [[]], none, none⟩
  sessionCookie := "ory_kratos_session".toList

/-- The key of the submissions. -/
def key : Key := Key.of loginEnv.digest loginEnv.toLowercase ['a']

def submitAt (now : Instant) : ProxyEvent := .request .post submission none headers body now

/-- Kratos refuses a request. -/
def refusal : Answer := ⟨403, ∅, []⟩

end Sample

namespace Service

/-- One of seven submissions is refused before the password is looked at; the last comes half a
minute after the one before. -/
theorem guess_rate_sixth : ∃ s,
    Reaches (step Sample.proxyEnv Sample.answers)
      (Unaided Sample.proxyEnv Sample.answers Sample.key) start s ∧
    guesses Sample.loginEnv Sample.answers Sample.reader Sample.key s.asked =
      [0, 0, 0, 0, fromSecs 1, fromSecs 31] ∧
    fromSecs (30 * (min 6 10 - 5) + 300 * (6 - 10)) ≤ fromSecs 31 - 0 := by
  obtain ⟨s, -, hreaches, hguesses⟩ := exists_run_of
    (Unaided Sample.proxyEnv Sample.answers Sample.key)
    (fun s => decide (guesses Sample.loginEnv Sample.answers Sample.reader Sample.key s.asked =
      [0, 0, 0, 0, fromSecs 1, fromSecs 31]))
    (by decide +kernel : (run (guarded (step Sample.proxyEnv Sample.answers) _) start
      [Sample.submitAt 0, Sample.submitAt 0, Sample.submitAt 0, Sample.submitAt 0,
        Sample.submitAt 0, .reply 1 (some Sample.refusal) 0, Sample.submitAt (fromSecs 1),
        Sample.submitAt (fromSecs 30), Sample.submitAt (fromSecs 31)]).any _ = true)
  have hguesses := of_decide_eq_true hguesses
  have hsub : [0, 0, 0, 0, fromSecs 1, fromSecs 31].Sublist
      (guesses Sample.loginEnv Sample.answers Sample.reader Sample.key s.asked) :=
    hguesses ▸ .refl _
  have hsoon : Soon [0, 0, 0, 0, fromSecs 1, fromSecs 31] := by decide
  exact ⟨s, hreaches, hguesses,
    guess_rate Sample.reader hreaches hsub (by decide) hsoon 0 rfl _ rfl⟩

end Service

end Login

end WeaveAuth
