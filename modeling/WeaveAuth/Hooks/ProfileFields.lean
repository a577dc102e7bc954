import WeaveAuth.Hooks.ProfileApi

/-!
# What the profile APIs yield

The calls go out together, and each of them fails or gives JSON. `collect` reads the results in the
order of the entries: what it makes of any of them is here.

## Main results

* `ProfileApi.fetch_of_some`: what is found in the JSON that a call gave
* `ProfileApi.merge_outcomes`: what the results give, one after another
* `ProfileApi.collect_fields`: when collecting fails, and which fields there are otherwise

## What is compared

`collect` folds over the results. What it is compared with says of each result by itself what it is
worth: nothing where its scope was declined, a failure where the call failed or the JSON lacks what
the entry asks for, and otherwise its fields. Neither the grants nor the scalars are stated by
functions of the code: a scope is granted if it is in the list, and a scalar is a string, a number
or a Boolean.
-/

namespace WeaveAuth

namespace Hooks

open Bff (Json)
open HashMap (lastOf lastOf_pairs get_foldl_insert)
open Program (Runs runs_done runs_send)

/-! ### What a call gives -/

/-- The JSON of a reply, if the call did not fail. -/
def jsonOf (crates : Crates) : StreamedReply → Option Json
  | .failed _ => none
  | .response status contentLength chunks broken =>
    if isSuccess status then
      (readLimited contentLength chunks broken).toOption.bind crates.fromSlice
    else none

/-- The scalar at a pointer: a string as it is, a number or a boolean as JSON has it. -/
def scalarAt (crates : Crates) (json : Json) (pointer : String) : Option String :=
  match crates.pointer json pointer with
  | some (.str text) => some text
  | some (.int number) => some (crates.valueText (.int number))
  | some (.float text) => some (crates.valueText (.float text))
  | some (.bool flag) => some (crates.valueText (.bool flag))
  | _ => none

theorem scalarAt_eq (crates : Crates) (json : Json) (pointer : String) :
    scalarAt crates json pointer =
      (crates.pointer json pointer).bind (scalarToString crates) := by
  rw [scalarAt]
  cases crates.pointer json pointer with
  | none => rfl
  | some value => cases value <;> rfl

/-- The scalars at the claims' pointers, under the names of their fields. -/
def scalarsOf (crates : Crates) (json : Json) (claims : List (String × String)) :
    List (String × String) :=
  claims.filterMap fun claim => (scalarAt crates json claim.2).map fun value => (claim.1, value)

/-- What became of an entry's call: without an access token there is no reply. -/
abbrev Outcome := ProfileApiConfig × Option StreamedReply

namespace Outcome

variable (crates : Crates) (outcome : Outcome)

def json : Option Json := outcome.2.bind (jsonOf crates)

/-- The call gave JSON with a scalar at each pointer. -/
def Complete : Prop :=
  ∃ json, outcome.json crates = some json ∧
    ∀ claim ∈ outcome.1.claims, scalarAt crates json claim.2 ≠ none

/-- The fields that were found. -/
def found : List (String × String) :=
  (outcome.json crates).elim [] fun json => scalarsOf crates json outcome.1.claims

end Outcome

namespace ProfileApi

variable {crates : Crates}

theorem get_extend (fields found : HashMap String String) (name : String) :
    (extend fields found).get name = (found.get name).or (fields.get name) := by
  rw [extend, get_foldl_insert, lastOf_pairs]

/-- The pointers that find a scalar insert it, and the others are missing. -/
theorem readClaims_eq (json : Json) (found : HashMap String String) (missing : List String)
    (claims : List (String × String)) : readClaims crates json found missing claims =
      ((scalarsOf crates json claims).foldl (fun found e => found.insert e.1 e.2) found,
      missing ++ (claims.filter fun claim => (scalarAt crates json claim.2).isNone).map
        Prod.snd) := by
  induction claims generalizing found missing with
  | nil => simp [readClaims, scalarsOf]
  | cons claim claims ih =>
    obtain ⟨field, pointer⟩ := claim
    cases hscalar : scalarAt crates json pointer with
    | none =>
      have hnone := (scalarAt_eq crates json pointer).symm.trans hscalar
      simp [readClaims, hnone, ih, hscalar, scalarsOf]
    | some value =>
      have hsome := (scalarAt_eq crates json pointer).symm.trans hscalar
      simp [readClaims, hsome, ih, hscalar, scalarsOf]

theorem fetch_of_none {api : ProfileApiConfig} {reply : StreamedReply}
    (h : jsonOf crates reply = none) :
    ∃ cause, fetchProfileApi crates api reply = .error cause := by
  cases reply with
  | failed cause => exact ⟨_, rfl⟩
  | response status contentLength chunks broken =>
    simp only [fetchProfileApi, jsonOf] at h ⊢
    by_cases hsuccess : isSuccess status = true
    · rw [if_pos hsuccess] at h
      rw [if_neg (by simp [hsuccess])]
      cases hbody : readLimited contentLength chunks broken with
      | error error => exact ⟨_, rfl⟩
      | ok body =>
        rw [hbody] at h
        change crates.fromSlice body = none at h
        simp only [h]
        exact ⟨_, rfl⟩
    · rw [if_pos (by simpa using hsuccess)]
      exact ⟨_, rfl⟩

/-- **What is found in the JSON that a call gave**: all of it, or some is missing. -/
theorem fetch_of_some {api : ProfileApiConfig} {reply : StreamedReply} {json : Json}
    (h : jsonOf crates reply = some json) : ∃ found : HashMap String String,
      (∀ name, found.get name = lastOf (scalarsOf crates json api.claims) name) ∧
      (fetchProfileApi crates api reply = .ok (.complete found) ∧
          (∀ claim ∈ api.claims, scalarAt crates json claim.2 ≠ none) ∨
        ∃ missing, fetchProfileApi crates api reply = .ok (.incomplete found missing) ∧
          ¬ ∀ claim ∈ api.claims, scalarAt crates json claim.2 ≠ none) := by
  cases reply with
  | failed cause => cases h
  | response status contentLength chunks broken =>
    obtain ⟨hsuccess, h⟩ := Option.ite_none_right_eq_some.mp h
    cases hread : readLimited contentLength chunks broken with
    | error error =>
      rw [hread] at h
      cases h
    | ok body =>
      rw [hread] at h
      change crates.fromSlice body = some json at h
      have hmissing : ((api.claims.filter fun claim => (scalarAt crates json claim.2).isNone).map
          Prod.snd).isEmpty = true ↔ ∀ claim ∈ api.claims, scalarAt crates json claim.2 ≠ none := by
        simp [List.filter_eq_nil_iff]
      refine ⟨(scalarsOf crates json api.claims).foldl (fun found e => found.insert e.1 e.2) ∅,
        fun name => ?_, ?_⟩
      · rw [get_foldl_insert, HashMap.get_empty, Option.or_none]
      · simp only [fetchProfileApi, hsuccess, hread, h, readClaims_eq, List.nil_append]
        by_cases hall : ∀ claim ∈ api.claims, scalarAt crates json claim.2 ≠ none
        · exact .inl ⟨by rw [if_pos (hmissing.mpr hall)]; rfl, hall⟩
        · exact .inr ⟨_, by rw [if_neg (mt hmissing.mp hall)]; rfl, hall⟩

/-- What a call gives for its entry. -/
theorem fetch_cases (api : ProfileApiConfig) (reply : StreamedReply) :
    let outcome : Outcome := (api, some reply)
    (∃ cause, fetchProfileApi crates api reply = .error cause ∧ ¬ outcome.Complete crates ∧
      outcome.found crates = []) ∨
    ∃ found : HashMap String String,
      (∀ name, found.get name = lastOf (outcome.found crates) name) ∧
      (fetchProfileApi crates api reply = .ok (.complete found) ∧ outcome.Complete crates ∨
        ∃ missing, fetchProfileApi crates api reply = .ok (.incomplete found missing) ∧
          ¬ outcome.Complete crates) := by
  intro outcome
  cases hjson : jsonOf crates reply with
  | none =>
    have hnone : outcome.json crates = none := hjson
    obtain ⟨cause, hcause⟩ := @fetch_of_none crates api reply hjson
    refine .inl ⟨cause, hcause, ?_, ?_⟩
    · rintro ⟨json, hsome, -⟩
      rw [hnone] at hsome
      cases hsome
    · rw [Outcome.found, hnone]
      rfl
  | some json =>
    have hsome : outcome.json crates = some json := hjson
    have hcomplete : outcome.Complete crates ↔
        ∀ claim ∈ api.claims, scalarAt crates json claim.2 ≠ none := by
      simp only [Outcome.Complete, hsome, Option.some.injEq, exists_eq_left']
      rfl
    have hfound : outcome.found crates = scalarsOf crates json api.claims := by
      rw [Outcome.found, hsome]
      rfl
    obtain ⟨found, hget, hfetch⟩ := @fetch_of_some crates api reply json hjson
    rw [← hfound] at hget
    rw [← hcomplete] at hfetch
    exact .inr ⟨found, hget, hfetch⟩

/-! ### What the results give -/

/-- The fields that the entries found: a later entry wins. -/
def fieldOf (crates : Crates) (outcomes : List Outcome) (name : String) : Option String :=
  (outcomes.filterMap fun outcome => lastOf (outcome.found crates) name).getLast?

theorem fieldOf_cons (outcome : Outcome) (outcomes : List Outcome) (name : String) :
    fieldOf crates (outcome :: outcomes) name =
      (fieldOf crates outcomes name).or (lastOf (outcome.found crates) name) := by
  rw [fieldOf, fieldOf, List.filterMap_cons]
  split
  · next h => rw [h, Option.or_none]
  · next value h => rw [h, List.getLast?_cons, Option.or_some]

/-- One result: it ends the merge, or its fields are added. -/
theorem merge_cons (api : ProfileApiConfig) (reply : StreamedReply)
    (results : List (ProfileApiConfig × Except String ProfileApiFields))
    (fields : HashMap String String) :
    let outcome : Outcome := (api, some reply)
    let result := merge ((api, fetchProfileApi crates api reply) :: results) fields
    (api.required = true ∧ ¬ outcome.Complete crates) ∧
        (∃ cause, result = .error (.failed cause)) ∨
      (api.required = true → outcome.Complete crates) ∧
        ∃ fields' : HashMap String String, result = merge results fields' ∧
          ∀ name, fields'.get name = (lastOf (outcome.found crates) name).or (fields.get name) := by
  intro outcome result
  rcases @fetch_cases crates api reply with ⟨cause, hfetch, hnot, hfound⟩ |
    ⟨found, hget, ⟨hfetch, hcomplete⟩ | ⟨missing, hfetch, hnot⟩⟩
  · simp only [result, hfetch, merge]
    cases hrequired : api.required with
    | true => exact .inl ⟨⟨rfl, hnot⟩, cause, rfl⟩
    | false =>
      refine .inr ⟨fun heq => Bool.noConfusion heq, fields, rfl, fun name => ?_⟩
      rw [hfound]
      rfl
  · refine .inr ⟨fun _ => hcomplete, extend fields found, ?_, fun name => ?_⟩
    · simp only [result, hfetch, merge]
    · rw [get_extend, hget]
  · simp only [result, hfetch, merge]
    cases hrequired : api.required with
    | true => exact .inl ⟨⟨rfl, hnot⟩, missing, rfl⟩
    | false =>
      refine .inr ⟨fun heq => Bool.noConfusion heq, extend fields found, rfl, fun name => ?_⟩
      rw [get_extend, hget]

/-- **What the results give, one after another.** -/
theorem merge_outcomes (calls : List (ProfileApiConfig × StreamedReply))
    (fields : HashMap String String) :
    let outcomes : List Outcome := calls.map fun call => (call.1, some call.2)
    let result := merge (calls.map fun call =>
      (call.1, fetchProfileApi crates call.1 call.2)) fields
    (∃ outcome ∈ outcomes, outcome.1.required = true ∧ ¬ outcome.Complete crates) ∧
        (∃ cause, result = .error (.failed cause)) ∨
      (∀ outcome ∈ outcomes, outcome.1.required = true → outcome.Complete crates) ∧
        ∃ fields' : HashMap String String, result = .ok fields' ∧
          ∀ name, fields'.get name = (fieldOf crates outcomes name).or (fields.get name) := by
  induction calls generalizing fields with
  | nil => exact .inr ⟨by simp, fields, rfl, fun name => rfl⟩
  | cons call calls ih =>
    obtain ⟨api, reply⟩ := call
    intro outcomes result
    obtain ⟨hfails, hresult⟩ | ⟨hpasses, fields', hresult, hget⟩ :=
      @merge_cons crates api reply (calls.map fun call =>
        (call.1, fetchProfileApi crates call.1 call.2)) fields
    · exact .inl ⟨⟨_, List.mem_cons_self, hfails⟩, hresult⟩
    · obtain ⟨⟨outcome, hmem, hfails⟩, hrest⟩ | ⟨hall, fields'', hrest, hget'⟩ := ih fields'
      · exact .inl ⟨⟨outcome, List.mem_cons_of_mem _ hmem, hfails⟩,
          hrest.imp fun cause h => hresult.trans h⟩
      · refine .inr ⟨List.forall_mem_cons.mpr ⟨hpasses, hall⟩, fields'', hresult.trans hrest,
          fun name => ?_⟩
        rw [hget', hget, ← Option.or_assoc, ← fieldOf_cons]
        rfl

/-! ### Which entries are called -/

/-- The scope that a required entry needs, if it was declined. -/
def declinedScope (granted : Option (List String)) (api : ProfileApiConfig) : Option String :=
  if api.required = true ∧ ¬Granted granted api then api.scope else none

/-- The code finds it. -/
theorem declinedScope_eq (granted : Option (List String)) (api : ProfileApiConfig) :
    declinedScope granted api = if api.required then
      api.scope.filter fun scope => !scopeGranted granted scope else none := by
  rw [declinedScope]
  by_cases hrequired : api.required = true
  · rw [if_pos hrequired]
    by_cases hgranted : Granted granted api
    · rw [declined_eq_none.mpr hgranted, if_neg fun h => h.2 hgranted]
    · rw [if_pos ⟨hrequired, hgranted⟩]
      have hdeclined := mt declined_eq_none.mp hgranted
      obtain ⟨scope, hscope⟩ := Option.ne_none_iff_exists'.mp hdeclined
      rw [hscope]
      exact (Option.filter_eq_some_iff.mp hscope).1
  · rw [if_neg fun h => hrequired h.1, if_neg hrequired]

theorem declinedScope_eq_none {granted : Option (List String)} {api : ProfileApiConfig} :
    declinedScope granted api = none ↔ (api.required = true → Granted granted api) := by
  rw [declinedScope_eq]
  split_ifs with hrequired
  · rw [declined_eq_none]
    exact ⟨fun h _ => h, fun h => h hrequired⟩
  · exact iff_of_true rfl fun h => absurd h hrequired

/-- **The first required entry whose scope was declined ends it.** -/
theorem select_eq_error {granted : Option (List String)} {apis : List ProfileApiConfig}
    {scope : String} (h : apis.findSome? (declinedScope granted) = some scope) :
    select granted apis = .error (.consentRequired scope) := by
  induction apis with
  | nil => cases h
  | cons api apis ih =>
    rw [List.findSome?_cons] at h
    rw [select]
    cases hdeclined : api.scope.filter fun scope => !scopeGranted granted scope with
    | none =>
      rw [declinedScope_eq_none.mpr fun _ => declined_eq_none.mp hdeclined] at h
      rw [ih h]
      rfl
    | some scope' =>
      cases hrequired : api.required with
      | true =>
        rw [declinedScope_eq, if_pos hrequired, hdeclined] at h
        rw [Option.some.inj h]
        rfl
      | false =>
        rw [declinedScope_eq, if_neg (by simp [hrequired])] at h
        exact ih h

/-! ### Collecting -/

/-- What the profile APIs replied in an exchange. -/
def repliesIn : Exchange Call Call.Answer → List StreamedReply
  | ⟨.profileApis _ _, replies⟩ => replies
  | _ => []

/-- Each of the URLs has its own reply, in their order. -/
def OneEach : Exchange Call Call.Answer → Prop
  | ⟨.profileApis urls _, replies⟩ => replies.length = urls.length
  | _ => True

/-- What became of the entries' calls. -/
def outcomesOf (selected : List ProfileApiConfig) (accessToken : Option String)
    (t : List (Exchange Call Call.Answer)) : List Outcome :=
  if accessToken.isSome then (selected.zip (t.flatMap repliesIn)).map fun call =>
    (call.1, some call.2)
  else selected.map fun api => (api, none)

theorem runs_fetchAll {selected : List ProfileApiConfig} {accessToken : String}
    {t : List (Exchange Call Call.Answer)} {replies : List StreamedReply}
    (h : Runs (fetchAll selected accessToken) t replies) :
    t.flatMap repliesIn = replies ∧
      ((∀ e ∈ t, OneEach e) → replies.length = selected.length) := by
  rw [fetchAll] at h
  split_ifs at h with hempty
  · obtain ⟨rfl, rfl⟩ := runs_done.mp h
    rw [List.isEmpty_iff.mp hempty]
    exact ⟨rfl, fun _ => rfl⟩
  · obtain ⟨answer, rest, rfl, hrest⟩ := Program.runs_call.mp h
    obtain ⟨rfl, rfl⟩ := runs_done.mp hrest
    refine ⟨List.append_nil _, fun heach => ?_⟩
    have hone : OneEach ⟨.profileApis (selected.map (·.url)) accessToken, replies⟩ :=
      heach _ List.mem_cons_self
    rwa [OneEach, List.length_map] at hone

variable {provider : String} {apis : List ProfileApiConfig} {granted : Option (List String)}
  {accessToken : Option String} {t : List (Exchange Call Call.Answer)}
  {result : Except ProfileError (HashMap String String)}

/-- A required entry was declined: nothing is called. -/
theorem collect_declined {scope : String}
    (hrun : Runs (collect crates provider apis accessToken granted) t result)
    (h : apis.findSome? (declinedScope granted) = some scope) :
    t = [] ∧ result = .error (.consentRequired scope) := by
  rw [collect, select_eq_error h] at hrun
  exact runs_done.mp hrun

theorem fieldOf_eq_none {outcomes : List Outcome} (h : ∀ outcome ∈ outcomes, outcome.2 = none)
    (name : String) : fieldOf crates outcomes name = none := by
  have hnothing : (outcomes.filterMap fun outcome => lastOf (outcome.found crates) name) = [] := by
    refine List.filterMap_eq_nil_iff.mpr fun outcome hmem => ?_
    rw [Outcome.found, Outcome.json, h outcome hmem]
    rfl
  rw [fieldOf, hnothing]
  rfl

/-- What the outcomes of the entries that are called make of the result. -/
def Yields (crates : Crates) (outcomes : List Outcome)
    (result : Except ProfileError (HashMap String String)) : Prop :=
  (∃ outcome ∈ outcomes, outcome.1.required = true ∧ ¬ outcome.Complete crates) ∧
      (∃ cause, result = .error (.failed cause)) ∨
    (∀ outcome ∈ outcomes, outcome.1.required = true → outcome.Complete crates) ∧
      ∃ fields : HashMap String String, result = .ok fields ∧
        ∀ name, fields.get name = fieldOf crates outcomes name

/-- Without an access token nothing is found, which only a required entry minds. -/
theorem yields_without_token {selected : List ProfileApiConfig} {cause : String}
    (hfails : selected.any (·.required) = true → result = .error (.failed cause))
    (hpasses : selected.any (·.required) = false → result = .ok ∅) :
    Yields crates (selected.map fun api => (api, none)) result := by
  cases hrequired : selected.any (·.required) with
  | true =>
    obtain ⟨api, hapi, hrequired'⟩ := List.any_eq_true.mp hrequired
    refine .inl ⟨⟨(api, none), List.mem_map.mpr ⟨api, hapi, rfl⟩, hrequired', ?_⟩, cause,
      hfails hrequired⟩
    rintro ⟨json, hsome, -⟩
    cases hsome
  | false =>
    refine .inr ⟨List.forall_mem_map.mpr fun api hapi hreq => ?_, ∅, hpasses hrequired,
      fun name => ?_⟩
    · exact absurd hreq (List.any_eq_false.mp hrequired api hapi)
    · rw [fieldOf_eq_none (List.forall_mem_map.mpr fun _ _ => rfl)]
      rfl

/-- No required entry was declined: the entries whose scope was granted are called, and each of
their results is read. -/
theorem collect_granted
    (hrun : Runs (collect crates provider apis accessToken granted) t result)
    (hreplies : ∀ e ∈ t, OneEach e)
    (h : ∀ api ∈ apis, api.required = true → Granted granted api) :
    let outcomes := outcomesOf (apis.filter (Granted granted ·)) accessToken t
    outcomes.map Prod.fst = apis.filter (Granted granted ·) ∧ Yields crates outcomes result := by
  rw [collect, select_eq_ok.mpr ⟨rfl, h⟩] at hrun
  generalize apis.filter (Granted granted ·) = selected at hrun ⊢
  cases accessToken with
  | none =>
    have houtcomes : outcomesOf selected none t = selected.map fun api => (api, none) := rfl
    dsimp only at hrun ⊢
    rw [houtcomes]
    have hfails (hrequired : selected.any (·.required) = true) : result =
        .error (.failed ("kratos holds no access token for provider '" ++ provider ++ "'")) := by
      rw [if_pos hrequired] at hrun
      exact (runs_done.mp hrun).2
    refine ⟨by simp [Function.comp_def], yields_without_token hfails fun hnone => ?_⟩
    rw [if_neg (ne_true_of_eq_false hnone)] at hrun
    exact (runs_done.mp hrun).2
  | some accessToken =>
    obtain ⟨replies, before, after, rfl, hcalls, hdone⟩ := Program.runs_bind.mp hrun
    obtain ⟨rfl, rfl⟩ := runs_done.mp hdone
    rw [List.append_nil] at hreplies ⊢
    obtain ⟨heq, hlength⟩ := runs_fetchAll hcalls
    have houtcomes : outcomesOf selected (some accessToken) before =
        (selected.zip replies).map fun call => (call.1, some call.2) := by
      rw [outcomesOf, heq]
      rfl
    dsimp only
    rw [houtcomes]
    refine ⟨?_, ?_⟩
    · rw [List.map_map]
      exact List.map_fst_zip (hlength hreplies).ge
    · simpa [Yields] using merge_outcomes (selected.zip replies) ∅

/-- **When collecting fails, and which fields there are otherwise.** A required entry whose scope
was declined ends it before any call, the first of them with its scope. Otherwise the entries whose
scope was granted are called, and it fails exactly if a required one of them has no reply, a failed
call or a pointer without a scalar: an optional entry never matters. If it does not fail, a field is
what the last of them found for it. -/
theorem collect_fields
    (hrun : Runs (collect crates provider apis accessToken granted) t result)
    (hreplies : ∀ e ∈ t, OneEach e) :
    let outcomes := outcomesOf (apis.filter (Granted granted ·)) accessToken t
    (∀ scope, result = .error (.consentRequired scope) ↔
      apis.findSome? (declinedScope granted) = some scope) ∧
    (∀ scope, result = .error (.consentRequired scope) → t = []) ∧
    ((∃ error, result = .error error) ↔
      (∃ api ∈ apis, api.required = true ∧ ¬Granted granted api) ∨
        (∀ api ∈ apis, api.required = true → Granted granted api) ∧
          ∃ outcome ∈ outcomes, outcome.1.required = true ∧ ¬ outcome.Complete crates) ∧
    ((∀ api ∈ apis, api.required = true → Granted granted api) →
      outcomes.map Prod.fst = apis.filter (Granted granted ·)) ∧
    ∀ fields, result = .ok fields → ∀ name, fields.get name = fieldOf crates outcomes name := by
  intro outcomes
  cases hdeclined : apis.findSome? (declinedScope granted) with
  | some scope =>
    obtain ⟨rfl, rfl⟩ := collect_declined hrun hdeclined
    obtain ⟨api, hapi, hscope⟩ := List.exists_of_findSome?_eq_some hdeclined
    have hnot : ¬ (api.required = true → Granted granted api) := by
      rw [← declinedScope_eq_none, hscope]
      exact Option.some_ne_none _
    have hexists : ∃ api ∈ apis, api.required = true ∧ ¬Granted granted api :=
      ⟨api, hapi, by simpa using hnot⟩
    refine ⟨fun scope' => ?_, fun _ _ => rfl, iff_of_true ⟨_, rfl⟩ (.inl hexists), ?_, ?_⟩
    · simp only [Except.error.injEq, ProfileError.consentRequired.injEq, Option.some.injEq]
    · exact fun hall => absurd (hall api hapi) hnot
    · exact fun fields hok => by cases hok
  | none =>
    have hall : ∀ api ∈ apis, api.required = true → Granted granted api := fun api hapi =>
      declinedScope_eq_none.mp (List.findSome?_eq_none_iff.mp hdeclined api hapi)
    obtain ⟨hselected, ⟨hfails, cause, rfl⟩ | ⟨hpasses, fields, rfl, hget⟩⟩ :=
      collect_granted hrun hreplies hall
    · refine ⟨fun scope => iff_of_false ?_ ?_, fun scope heq => ?_,
        iff_of_true ⟨_, rfl⟩ (.inr ⟨hall, hfails⟩), fun _ => hselected, fun fields hok => ?_⟩
      · exact fun heq => by cases heq
      · exact fun heq => by cases heq
      · cases heq
      · cases hok
    · refine ⟨fun scope => iff_of_false ?_ ?_, fun scope heq => ?_, iff_of_false ?_ ?_,
        fun _ => hselected, fun fields' hok => ?_⟩
      · exact fun heq => by cases heq
      · exact fun heq => by cases heq
      · cases heq
      · rintro ⟨error, heq⟩
        cases heq
      · rintro (⟨api, hapi, hrequired, hnot⟩ | ⟨-, outcome, hmem, hrequired, hnot⟩)
        · exact hnot (hall api hapi hrequired)
        · exact hnot (hpasses outcome hmem hrequired)
      · obtain rfl := Except.ok.inj hok
        exact hget

/-! ### Two entries -/

/-- The body `"Ada"` is JSON, and the empty pointer is to all of it. -/
def adaCrates : Crates where
  parseStr _ := none
  uuidText _ := ""
  fromSlice bytes := if bytes = [0x22, 0x41, 0x64, 0x61, 0x22] then some (.str "Ada") else none
  syntaxText _ := "expected value"
  valueText _ := ""
  pointer json pointer := if pointer = "" then some json else none
  parseUrl _ := none
  mismatch _ := "invalid type"
  statusText := toString
  durationText := toString

/-- An optional entry whose scope was declined, one without a reply, and a required one that has
the name. -/
def adaApis : List ProfileApiConfig :=
  [⟨"https://c.example/me", [("name", "")], some "contacts", false⟩,
    ⟨"https://a.example/me", [("name", "")], none, false⟩,
    ⟨"https://b.example/me", [("name", "")], some "profile", true⟩]

theorem collect_fields_ada :
    let replies := [StreamedReply.failed "timed out",
      .response 200 none [[0x22, 0x41, 0x64, 0x61, 0x22]] none]
    ∃ fields : HashMap String String,
      Runs (collect adaCrates "google" adaApis (some "token") (some ["profile"]))
        [⟨.profileApis ["https://a.example/me", "https://b.example/me"] "token", replies⟩]
        (.ok fields) ∧ fields.get "name" = some "Ada" := by
  intro replies
  have hrun : Runs (collect adaCrates "google" adaApis (some "token") (some ["profile"]))
      [⟨.profileApis ["https://a.example/me", "https://b.example/me"] "token", replies⟩]
      (.ok (extend ∅ ((∅ : HashMap String String).insert "name" "Ada"))) := by
    have hselect : select (some ["profile"]) adaApis = .ok adaApis.tail := by rfl
    rw [collect, hselect]
    refine Program.runs_bind.mpr ⟨replies, _, [], (List.append_nil _).symm, .call _ (.done _), ?_⟩
    exact .done _
  refine ⟨_, hrun, ?_⟩
  have hget := (collect_fields hrun (by simp [OneEach, replies])).2.2.2.2 _ rfl "name"
  rw [hget]
  decide +kernel

end ProfileApi

end Hooks

end WeaveAuth
