import WeaveAuth.ForMathlib.Deadline
import WeaveAuth.Hooks.Config
import WeaveAuth.Hooks.Revocation

/-!
# Where the time of a revocation goes

Kratos' part of `revoke` has half of the request's time, and each call of it up to the upstream
timeout. `Config::validate` sees to it that one call fits, but the purge before the sessions makes
several.

## Main results

* `sent_sessionsCall_iff`: when the sessions are revoked before the time is up
* `all_sent_iff`: in terms of the configuration and the calls that hang
* `hanging_outage`: how many do if Kratos does not answer at all

## The times

A call hangs, and then takes the upstream timeout, or is answered at once: the answered calls take
no time in `all_sent_iff`. Where everything that hangs fits to the nanosecond, it says that the
sessions are reached; on a real machine that case may go either way. `sent_sessionsCall_iff` is the
same for calls that take any time, and has neither idealisation.
-/

namespace WeaveAuth

namespace Hooks

open Bff (Json Uuid)
open Program KratosAdmin

/-- The calls with which Kratos' sessions begin to be revoked. -/
def Call.OfSessions : Call → Prop
  | .listSessions _ | .revokeAllSessions _ => True
  | _ => False

namespace Revocation

variable (revocation : Revocation)

/-- The first call of the revocation of Kratos' sessions. -/
def sessionsCall : Call :=
  match revocation.keepSession with
  | none => .revokeAllSessions revocation.identityId
  | some _ => .listSessions revocation.identityId

/-- And the calls that are sent together after Kratos' part. -/
def restCalls : List Call :=
  [.revokeConsentSessions revocation.identityId, .revokeLoginSessions revocation.identityId,
    .revokeInBff revocation.identityId]

end Revocation

/-- The call was sent before some time. -/
def SentBefore (time : ℕ) (log : List (Sent Call Call.Answer)) (c : Call) : Prop :=
  ∃ sent ∈ log, sent.call = c ∧ sent.sentAt < time

/-! ### Each part -/

section Parts

variable {crates : Crates} {id : Uuid} {P : Call → Prop}

theorem onlyCalls_getIdentity {includeOidc : Bool} (h : P (.getIdentity id includeOidc)) :
    (getIdentity crates id includeOidc).OnlyCalls P :=
  (onlyCalls_send h).bind fun _ => trivial

theorem onlyCalls_scramblePassword {password : String} (hget : P (.getIdentity id false))
    (hput : ∀ id body, P (.replaceIdentity id body)) :
    (scramblePassword crates password id).OnlyCalls P := by
  refine (onlyCalls_getIdentity hget).andThen fun identity => ?_
  split_ifs
  · exact (onlyCalls_send (hput _ _)).bind fun _ => trivial
  · trivial

theorem onlyCalls_deleteCredential {credentialType : String} (hget : P (.getIdentity id false))
    (hpatch : P (.removePasskey id)) (hdelete : P (.deleteCredential id credentialType)) :
    (deleteCredential crates id credentialType).OnlyCalls P := by
  rw [deleteCredential]
  split_ifs
  · refine (onlyCalls_getIdentity hget).andThen fun identity => ?_
    split_ifs
    · exact (onlyCalls_send hpatch).bind fun _ => trivial
    · trivial
  · exact (onlyCalls_send hdelete).bind fun _ => trivial

theorem onlyCalls_purgePassword {password : String} (hget : ∀ oidc, P (.getIdentity id oidc))
    (hput : ∀ id body, P (.replaceIdentity id body)) :
    (purgePassword crates password id).OnlyCalls P := by
  refine (onlyCalls_getIdentity (hget true)).bind fun result => ?_
  cases result with
  | error error => trivial
  | ok identity => exact (onlyCalls_scramblePassword (hget false) hput).bind fun _ => trivial

/-- The purge revokes no sessions. -/
theorem onlyCalls_purge (crates : Crates) (revocation : Revocation) (password : String) :
    (purge crates revocation password).OnlyCalls fun c => ¬ c.OfSessions := by
  rw [purge]
  split_ifs
  · rw [purgeCredentials]
    refine OnlyCalls.bind ?_ fun _ => trivial
    refine (onlyCalls_purgePassword (fun _ => not_false) fun _ _ => not_false).bind fun found => ?_
    refine (OnlyCalls.collect fun link _ => ?_).bind fun _ =>
      (OnlyCalls.collect fun credentialType _ => ?_).bind fun _ => trivial
    · refine OnlyCalls.bind (OnlyCalls.bind ?_ fun _ => trivial) fun _ => trivial
      exact onlyCalls_send not_false
    · refine OnlyCalls.bind ?_ fun _ => trivial
      exact onlyCalls_deleteCredential not_false not_false not_false
  · trivial

end Parts

/-! ### The whole -/

section Whole

variable {net : Net Call Call.Answer} {state : AppState} {revocation : Revocation} {drawn : Drawn}
  {w : World Call Call.Answer}

theorem within_snd (crates : Crates) (net : Net Call Call.Answer) (budget : ℕ)
    (call : Calls (Except UpstreamError Unit)) (w : World Call Call.Answer) :
    (within crates net budget call w).2 = (call.execUntil net (w.now + budget) w).2 := by
  rw [within]
  split
  · next heq => rw [heq]
  · next heq => rw [heq]

theorem withinKratosBudget_snd (net : Net Call Call.Answer) (state : AppState)
    (revocation : Revocation) (drawn : Drawn) (w : World Call Call.Answer) :
    (withinKratosBudget net state revocation drawn w).2 =
      ((revokeInKratos state.crates revocation drawn).execUntil net
        (w.now + state.requestTimeout / 2) w).2 := by
  rw [withinKratosBudget]
  split
  · next heq => rw [heq]
  · next heq => rw [heq]

/-- A call by itself is sent at once. -/
theorem log_within {crates : Crates} {budget : ℕ} {c : Call}
    {f : c.Answer → Except UpstreamError Unit} {call : Calls (Except UpstreamError Unit)}
    {result : Except String Unit} {w' : World Call Call.Answer}
    (hcall : call = Program.send c >>= fun reply => pure (f reply))
    (h : within crates net budget call w = (result, w')) :
    ∃ answer, w'.log = w.log ++ [⟨c, w.now, answer⟩] := by
  have hsnd := within_snd crates net budget call w
  rw [h, hcall, send_bind] at hsnd
  rcases hnet : net w.log c with ⟨answer, time⟩
  simp only [execUntil, hnet] at hsnd
  split_ifs at hsnd
  · exact ⟨some answer, congrArg World.log hsnd⟩
  · exact ⟨none, congrArg World.log hsnd⟩

/-- What is sent once Kratos' part has ended: the other calls, and at that time. -/
theorem log_revoke (net : Net Call Call.Answer) (state : AppState) (revocation : Revocation)
    (drawn : Drawn) (w : World Call Call.Answer) : ∃ consent login bff,
      let w₀ := (withinKratosBudget net state revocation drawn w).2
      (revoke net state revocation drawn w).2.log = w₀.log ++
        [⟨.revokeConsentSessions revocation.identityId, w₀.now, consent⟩,
          ⟨.revokeLoginSessions revocation.identityId, w₀.now, login⟩,
          ⟨.revokeInBff revocation.identityId, w₀.now, bff⟩] := by
  rcases hkratos : withinKratosBudget net state revocation drawn w with ⟨failures, w₀⟩
  rcases hconsent : within state.crates net (state.requestTimeout * 2 / 5)
    (HydraAdmin.revokeConsentSessions revocation.identityId) w₀ with ⟨consent, w₁⟩
  rcases hlogin : within state.crates net (state.requestTimeout * 2 / 5)
    (HydraAdmin.revokeLoginSessions revocation.identityId) ⟨w₁.log, w₀.now⟩ with ⟨login, w₂⟩
  rcases hbff : within state.crates net (state.requestTimeout * 2 / 5)
    (BffInternal.revoke revocation.identityId) ⟨w₂.log, w₀.now⟩ with ⟨bff, w₃⟩
  have hlog : (revoke net state revocation drawn w).2.log = w₃.log := by
    simp only [revoke, hkratos, hconsent, hlogin, hbff]
    split_ifs <;> rfl
  obtain ⟨first, hfirst⟩ := log_within (c := .revokeConsentSessions _) rfl hconsent
  obtain ⟨second, hsecond⟩ := log_within (c := .revokeLoginSessions _) rfl hlogin
  obtain ⟨third, hthird⟩ := log_within (c := .revokeInBff _) rfl hbff
  refine ⟨first, second, third, ?_⟩
  rw [hlog, hthird, hsecond, hfirst]
  simp

theorem now_kratos_lt (net : Net Call Call.Answer) (revocation : Revocation) (drawn : Drawn)
    (w : World Call Call.Answer) (hpositive : 0 < state.requestTimeout) :
    (withinKratosBudget net state revocation drawn w).2.now < w.now + state.requestTimeout := by
  have hle := now_execUntil_le net (revokeInKratos state.crates revocation drawn)
    (Nat.le_add_right w.now (state.requestTimeout / 2))
  rw [withinKratosBudget_snd]
  omega

/-- **Hydra and bff are always called in time.** -/
theorem sent_restCalls (net : Net Call Call.Answer) (revocation : Revocation) (drawn : Drawn)
    (w : World Call Call.Answer) (hpositive : 0 < state.requestTimeout) :
    ∀ c ∈ revocation.restCalls, SentBefore (w.now + state.requestTimeout)
      (revoke net state revocation drawn w).2.log c := by
  obtain ⟨consent, login, bff, hlog⟩ := log_revoke net state revocation drawn w
  have hlt := now_kratos_lt net revocation drawn w hpositive
  intro c hc
  rw [hlog]
  simp only [Revocation.restCalls, List.mem_cons, List.not_mem_nil, or_false] at hc
  rcases hc with rfl | rfl | rfl
  · exact ⟨⟨.revokeConsentSessions _, _, consent⟩, by simp, rfl, hlt⟩
  · exact ⟨⟨.revokeLoginSessions _, _, login⟩, by simp, rfl, hlt⟩
  · exact ⟨⟨.revokeInBff _, _, bff⟩, by simp, rfl, hlt⟩

theorem sessionsCall_first (crates : Crates) (revocation : Revocation) : ∃ next,
    revokeKratosSessions crates revocation.identityId revocation.keepSession =
      Program.call revocation.sessionsCall next := by
  rw [Revocation.sessionsCall]
  cases revocation.keepSession with
  | none => exact ⟨_, rfl⟩
  | some keep => exact ⟨_, rfl⟩

theorem ofSessions_sessionsCall (revocation : Revocation) : revocation.sessionsCall.OfSessions := by
  rw [Revocation.sessionsCall]
  cases revocation.keepSession <;> trivial

/-- **Kratos' sessions are reached exactly if** the first purge ends within half of the request's
time. -/
theorem sent_sessionsCall_iff (net : Net Call Call.Answer) (revocation : Revocation) (drawn : Drawn)
    (hlog : w.log = []) (hpositive : 0 < state.requestTimeout) :
    SentBefore (w.now + state.requestTimeout) (revoke net state revocation drawn w).2.log
        revocation.sessionsCall ↔
      ((purge state.crates revocation drawn.first).exec net w).2.now ≤
        w.now + state.requestTimeout / 2 := by
  obtain ⟨consent, login, bff, hrest⟩ := log_revoke net state revocation drawn w
  have hdeadline : w.now ≤ w.now + state.requestTimeout / 2 := Nat.le_add_right _ _
  rw [now_exec_le_iff _ hdeadline, hrest, withinKratosBudget_snd, revokeInKratos, execUntil_bind]
  rcases hpurge : (purge state.crates revocation drawn.first).execUntil net
    (w.now + state.requestTimeout / 2) w with ⟨before | before, w'⟩
  · -- only calls of the purge have been sent
    refine iff_of_false ?_ ?_
    · rintro ⟨sent, hsent, hcall, -⟩
      have hofSessions := ofSessions_sessionsCall revocation
      rw [← hcall] at hofSessions
      rcases List.mem_append.mp hsent with hmem | hmem
      · have hmem' : sent ∈ ((purge state.crates revocation drawn.first).execUntil net
            (w.now + state.requestTimeout / 2) w).2.log := by
          rw [hpurge]
          exact hmem
        rcases (onlyCalls_purge state.crates revocation drawn.first).of_mem_log hmem' with hw | hnot
        · rw [hlog] at hw
          cases hw
        · exact hnot hofSessions
      · simp only [List.mem_cons, List.not_mem_nil, or_false] at hmem
        rcases hmem with rfl | rfl | rfl <;> exact hofSessions
    · rintro ⟨_, _, heq⟩
      cases (Prod.mk.inj heq).1
  · refine iff_of_true ?_ ⟨_, _, rfl⟩
    obtain ⟨next, hnext⟩ := sessionsCall_first state.crates revocation
    have hnow := now_execUntil_le net (purge state.crates revocation drawn.first) hdeadline
    rw [hpurge] at hnow
    dsimp only
    rw [hnext, call_bind]
    obtain ⟨answer, hmem⟩ := sent_first net (w.now + state.requestTimeout / 2)
      revocation.sessionsCall _ w'
    refine ⟨_, List.mem_append_left _ hmem, rfl, ?_⟩
    dsimp only at hnow ⊢
    omega

/-- **Every step is attempted in time exactly if** the calls of the first purge that hang, one
upstream timeout each, fit into half of the request's time. Calls that are answered take no time
here, and what fits to the nanosecond fits: `sent_sessionsCall_iff` is for calls of any length. -/
theorem all_sent_iff {parse : String → Except String ParsedUrl} {config config' : Config}
    {crates : Crates} (hvalid : config.validate parse = .ok config')
    (hstate : AppState.new crates config' = .ok state) (assignment : Assignment Call Call.Answer)
    (revocation : Revocation) (drawn : Drawn) (start : ℕ) :
    let timeout := fromSecs config.upstreamTimeoutSecs.toNat
    (∀ c ∈ revocation.sessionsCall :: revocation.restCalls,
      SentBefore (start + fromSecs config.requestTimeoutSecs.toNat)
        (revoke (assignment.toNet timeout) state revocation drawn ⟨[], start⟩).2.log c) ↔
      2 * (config.upstreamTimeoutSecs.toNat *
          (purge crates revocation drawn.first).hanging timeout assignment ⟨[], start⟩) ≤
        config.requestTimeoutSecs.toNat := by
  intro timeout
  obtain ⟨hconfig, rfl⟩ := Config.validate_eq_ok.mp hvalid
  obtain ⟨-, hfields⟩ := AppState.new_eq_ok.mp hstate
  have hcrates : state.crates = crates := by rw [hfields]
  have hrequest : state.requestTimeout = fromSecs config.requestTimeoutSecs.toNat := by
    rw [hfields]
    rfl
  have hpositive : 0 < state.requestTimeout := by
    have htimeout := hconfig.upstreamTimeout
    rw [hrequest, fromSecs]
    omega
  have hsessions := sent_sessionsCall_iff (w := ⟨[], start⟩) (assignment.toNet timeout) revocation
    drawn rfl hpositive
  have hrest := sent_restCalls (assignment.toNet timeout) revocation drawn ⟨[], start⟩ hpositive
  rw [now_exec_toNet, hcrates, hrequest] at hsessions
  rw [hrequest] at hrest
  rw [List.forall_mem_cons, and_iff_left hrest, hsessions]
  generalize (purge crates revocation drawn.first).hanging timeout assignment ⟨[], start⟩ = count
  have htimeout : timeout = config.upstreamTimeoutSecs.toNat * 1000000000 := rfl
  rw [htimeout, fromSecs, Nat.add_le_add_iff_left]
  have hcomm : config.upstreamTimeoutSecs.toNat * 1000000000 * count =
      config.upstreamTimeoutSecs.toNat * count * 1000000000 := Nat.mul_right_comm _ _ _
  omega

end Whole

/-! ### An outage of Kratos -/

/-- **Five calls hang** where Kratos answers nothing: two reads, and three of the four deletions. -/
theorem hanging_outage {crates : Crates} {revocation : Revocation} {password cause : String}
    {timeout : ℕ} {assignment : Assignment Call Call.Answer} {w : World Call Call.Answer}
    (hpurge : revocation.purgeCredentials = true)
    (hget : ∀ log oidc, assignment log (.getIdentity revocation.identityId oidc) =
      (.failed cause, true))
    (hdelete : ∀ log credentialType,
      assignment log (.deleteCredential revocation.identityId credentialType) =
        (.failed cause, true)) :
    (purge crates revocation password).hanging timeout assignment w = 5 := by
  rw [purge, if_pos hpurge, purgeCredentials, purgePassword, getIdentity]
  simp [hanging, hget, hdelete, purgedCredentialTypes, collect, deleteCredential, getIdentity,
    checked, Except.bind, andThen]

/-! ### A recovery with the default timeouts -/

def defaultConfig : Config :=
  { Config.default with hooksApiKey := "0123456789abcdef", bffInternalApiKey := "bff-key" }

def recovery : Revocation where
  identityId := 0x11111111111111111111111111111111
  keepSession := none
  purgeCredentials := true

/-- Only the read with which a purge begins hangs. -/
def slowRead : Assignment Call Call.Answer := fun log call =>
  match call with
  | .getIdentity _ true => (.failed "operation timed out", true)
  | call => ((sampleNet log call).1, false)

/-- Kratos answers nothing. -/
def outage : Assignment Call Call.Answer := fun log call =>
  match call with
  | .getIdentity _ _ | .replaceIdentity _ _ | .deleteIdentity _ | .deleteOidcLink _ _
  | .deleteCredential _ _ | .removePasskey _ | .listSessions _ | .revokeSession _
  | .revokeAllSessions _ => (.failed "operation timed out", true)
  | call => ((sampleNet log call).1, false)

/-- Where only one call hangs, every step is attempted. -/
theorem all_sent_slow_read :
    let log := (revoke (slowRead.toNet (fromSecs 10)) sampleState recovery ⟨"x", "y"⟩ ⟨[], 0⟩).2.log
    SentBefore (fromSecs 30) log (.revokeAllSessions recovery.identityId) ∧
      SentBefore (fromSecs 30) log (.revokeConsentSessions recovery.identityId) ∧
      SentBefore (fromSecs 30) log (.revokeLoginSessions recovery.identityId) ∧
      SentBefore (fromSecs 30) log (.revokeInBff recovery.identityId) := by
  let parse : String → Except String ParsedUrl :=
    fun _ => .ok ⟨"http", some (.domain "localhost")⟩
  have hvalid : defaultConfig.validate parse = .ok defaultConfig.trimmed :=
    Config.validate_eq_ok.mpr ⟨Config.valid_default _ _ fun _ _ => rfl, rfl⟩
  have hstate : AppState.new sampleCrates defaultConfig.trimmed =
      .ok { sampleState with registration := false, loginClaims := false } :=
    AppState.new_eq_ok.mpr ⟨by decide, rfl⟩
  have hsent := (all_sent_iff hvalid hstate slowRead recovery ⟨"x", "y"⟩ 0).mpr (by decide +kernel)
  rw [Nat.zero_add] at hsent
  obtain ⟨hsessions, hrest⟩ := List.forall_mem_cons.mp hsent
  exact ⟨hsessions, hrest _ (by simp [Revocation.restCalls]),
    hrest _ (by simp [Revocation.restCalls]), hrest _ (by simp [Revocation.restCalls])⟩

/-- Where Kratos answers nothing, its sessions are not even tried. -/
theorem sessions_survive_outage :
    let parse : String → Except String ParsedUrl :=
      fun _ => .ok ⟨"http", some (.domain "localhost")⟩
    defaultConfig.validate parse = .ok defaultConfig.trimmed ∧
      AppState.new sampleCrates defaultConfig.trimmed = .ok sampleState ∧
      ∀ sent ∈ (revoke (outage.toNet (fromSecs 10)) sampleState recovery ⟨"x", "y"⟩
        ⟨[], 0⟩).2.log, ¬ sent.call.OfSessions := by
  refine ⟨Config.validate_eq_ok.mpr ⟨Config.valid_default _ _ fun _ _ => rfl, rfl⟩,
    AppState.new_eq_ok.mpr ⟨by decide, rfl⟩, ?_⟩
  have hcalls : (revoke (outage.toNet (fromSecs 10)) sampleState recovery ⟨"x", "y"⟩
      ⟨[], 0⟩).2.log.map Sent.call =
        [.getIdentity recovery.identityId true, .deleteCredential recovery.identityId "webauthn",
          .revokeConsentSessions recovery.identityId, .revokeLoginSessions recovery.identityId,
          .revokeInBff recovery.identityId] := by
    rfl
  intro sent hsent
  have hcall := List.mem_map_of_mem (f := Sent.call) hsent
  rw [hcalls] at hcall
  simp only [List.mem_cons, List.not_mem_nil, or_false] at hcall
  rcases hcall with heq | heq | heq | heq | heq <;> rw [heq] <;> exact not_false

end Hooks

end WeaveAuth
