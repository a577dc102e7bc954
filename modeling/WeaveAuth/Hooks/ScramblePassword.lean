import WeaveAuth.ForMathlib.SharedServer
import WeaveAuth.Hooks.Revocation

/-!
# Replacing a password while admins work

`KratosAdmin::scramble_password` reads an identity and writes all of it back, with another password.
Admins may change the same identity at any time. Kratos is left open, but for what its admin API is
documented to do.

## Main results

* `fields_withPassword`: the body that is written has the fields that were read
* `undone_iff`: when no admin's change is undone

## What is assumed of Kratos

`IsKratos` says what its admin API is documented to do with an identity: a `GET` gives the fields
that there are, and a `PUT` replaces them by those of the body. The fields are those that
`serde_json` reads of the answer. A number that is neither a `u64` nor an `i64` is a float there,
and what is written back is that float: an integer beyond 64 bits in the traits would not come back
as it was. That is a limit of the reading, and none of the race that this module is about.
-/

namespace WeaveAuth

namespace Hooks

open Bff (Json Uuid)
open SharedServer KratosAdmin

/-- What admins set, and the `PUT` sends back. -/
structure Fields where
  schemaId : String
  state : String
  traits : Json
  metadataPublic : Json
  metadataAdmin : Json

/-- The fields of an identity with a state. -/
def Identity.fields? (identity : Identity) : Option Fields := identity.state.map fun state => {
  schemaId := identity.schemaId
  state
  traits := identity.traits
  metadataPublic := identity.metadataPublic
  metadataAdmin := identity.metadataAdmin }

/-- An identity as Kratos has it: the fields, and everything else of it. -/
structure Stored (η : Type) where
  fields : Fields
  rest : η

variable {η : Type}

/-- An admin's change. -/
def Stored.change (stored : Stored η) (change : Fields → Fields) : Stored η :=
  { stored with fields := change stored.fields }

/-- What the admins' changes alone leave. -/
def alone (changes : List (Fields → Fields)) (fields : Fields) : Fields :=
  changes.foldl (fun fields change => change fields) fields

/-- What Kratos' admin API is documented to do with one identity: a `GET` shows it, and a `PUT`
replaces its fields by those of the body. The fields are what `serde_json` reads of them, so that a
number which is neither a `u64` nor an `i64` is a float in both. -/
structure IsKratos (crates : Crates) (id : Uuid)
    (kratos : Server Call Call.Answer (Stored η)) : Prop where
  shows : ∀ stored identity, Reply.Shows (Identity.fromJson crates) identity
    (kratos (.getIdentity id false) stored).1 →
      identity.id = id ∧ identity.fields? = some stored.fields
  keeps : ∀ stored, (kratos (.getIdentity id false) stored).2 = stored
  replaces : ∀ stored body schemaId state traits, body.get "schema_id" = some (.str schemaId) →
    body.get "state" = some (.str state) → body.get "traits" = some traits →
      Reply.Succeeded (kratos (.replaceIdentity id body) stored).1 →
        (kratos (.replaceIdentity id body) stored).2.fields = ⟨schemaId, state, traits,
          (body.get "metadata_public").getD .null, (body.get "metadata_admin").getD .null⟩

/-! ### What is written -/

theorem eq_null_of_isNull {json : Json} (h : isNull json = true) : json = .null := by
  cases json <;> first | rfl | cases h

/-- Members that are `null` are left out, which is read as `null` again. -/
theorem fields_withPassword (identity : Identity) (password : String) :
    let body := identity.withPassword password
    body.get "schema_id" = some (.str identity.schemaId) ∧
      body.get "state" = some (.str "active") ∧ body.get "traits" = some identity.traits ∧
      (body.get "metadata_public").getD .null = identity.metadataPublic ∧
      (body.get "metadata_admin").getD .null = identity.metadataAdmin := by
  refine ⟨rfl, rfl, rfl, ?_⟩
  rw [Identity.withPassword]
  generalize identity.metadataPublic = before
  generalize identity.metadataAdmin = after
  have hnull : isNull .null = true := rfl
  cases hbefore : isNull before with
  | false => cases hafter : isNull after with
    | false => simp [Json.get, hbefore, hafter]
    | true => simp [Json.get, hbefore, hnull, eq_null_of_isNull hafter]
  | true => cases hafter : isNull after with
    | false => simp [Json.get, hafter, hnull, eq_null_of_isNull hbefore]
    | true => simp [Json.get, hnull, eq_null_of_isNull hbefore, eq_null_of_isNull hafter]

/-! ### Changes -/

theorem alone_append (before after : List (Fields → Fields)) (fields : Fields) :
    alone (before ++ after) fields = alone after (alone before fields) := List.foldl_append

theorem fields_foldl (changes : List (Fields → Fields)) (stored : Stored η) :
    (changes.foldl Stored.change stored).fields = alone changes stored.fields := by
  induction changes generalizing stored with
  | nil => rfl
  | cons change changes ih => exact ih (stored.change change)

/-! ### The two calls -/

section Runs

variable {crates : Crates} {id : Uuid} {password : String}
  {kratos : Server Call Call.Answer (Stored η)}

/-- What comes after the read. -/
def afterRead (crates : Crates) (password : String) (reply : Reply) :
    Calls (Except UpstreamError Unit) :=
  match (checked "kratos get identity" reply).bind
    (readJson crates (Identity.fromJson crates) "kratos get identity") with
  | .error error => .done (.error error)
  | .ok identity =>
    if identity.isActive then
      .call (.replaceIdentity identity.id (identity.withPassword password)) fun reply =>
        .done ((checked "kratos replace password" reply).map fun _ => ())
    else .done (.error (.inactive "kratos replace password"))

theorem scramblePassword_eq (crates : Crates) (password : String) (id : Uuid) :
    scramblePassword crates password id =
      .call (.getIdentity id false) (afterRead crates password) := by
  rw [scramblePassword, getIdentity, Program.andThen, Program.send_bind, Program.call_bind]
  congr 1
  funext reply
  rw [Program.pure_eq, Program.done_bind, afterRead]
  cases (checked "kratos get identity" reply).bind
    (readJson crates (Identity.fromJson crates) "kratos get identity") with
  | error error => rfl
  | ok identity => rfl

/-- It ends at once, or writes back an active identity that was read. -/
theorem afterRead_cases (crates : Crates) (password : String) (reply : Reply) :
    (∃ error, afterRead crates password reply = .done (.error error)) ∨
      ∃ identity, reply.Shows (Identity.fromJson crates) identity ∧ identity.isActive = true ∧
        afterRead crates password reply =
          .call (.replaceIdentity identity.id (identity.withPassword password)) fun reply =>
            .done ((checked "kratos replace password" reply).map fun _ => ()) := by
  rw [afterRead]
  cases hread : (checked "kratos get identity" reply).bind
    (readJson crates (Identity.fromJson crates) "kratos get identity") with
  | error error => exact .inl ⟨error, rfl⟩
  | ok identity =>
    dsimp only
    split_ifs with hactive
    · exact .inr ⟨identity, readJson_ok.mp hread, hactive, rfl⟩
    · exact .inl ⟨_, rfl⟩

/-- **What is written is what was read.** -/
theorem fields_replaced (hkratos : IsKratos crates id kratos) {stored stored' : Stored η}
    {identity : Identity}
    (hshows : Reply.Shows (Identity.fromJson crates) identity
      (kratos (.getIdentity id false) stored).1)
    (hactive : identity.isActive = true)
    (hwritten : Reply.Succeeded
      (kratos (.replaceIdentity identity.id (identity.withPassword password)) stored').1) :
    (kratos (.replaceIdentity identity.id (identity.withPassword password)) stored').2.fields =
      stored.fields := by
  obtain ⟨rfl, hfields⟩ := hkratos.shows stored identity hshows
  obtain ⟨hschema, hstate, htraits, hpublic, hadmin⟩ := fields_withPassword identity password
  rw [hkratos.replaces stored' _ _ _ _ hschema hstate htraits hwritten, hpublic, hadmin]
  rw [Identity.fields?, of_decide_eq_true hactive] at hfields
  exact Option.some.inj hfields

/-- Two calls are served, and then all is done; if that is a success, the fields are those that were
read. -/
theorem run_two_served (hkratos : IsKratos crates id kratos)
    (before between : List (Fields → Fields)) (stored : Stored η) : ∃ result stored',
      (∀ rest, run kratos Stored.change (servedTwice before between rest)
          (scramblePassword crates password id, stored) =
        run kratos Stored.change rest (.done result, stored')) ∧
      (result = .ok () → stored'.fields = alone before stored.fields) := by
  simp only [servedTwice, scramblePassword_eq, run_served, hkratos.keeps]
  generalize hread : before.foldl Stored.change stored = read
  have hfields : read.fields = alone before stored.fields := hread ▸ fields_foldl before stored
  rcases afterRead_cases crates password (kratos (.getIdentity id false) read).1 with
    ⟨error, hdone⟩ | ⟨identity, hshows, hactive, hcall⟩
  · refine ⟨.error error, between.foldl Stored.change read, fun rest => ?_, fun h => by cases h⟩
    rw [hdone, run_append, run_map]
    rfl
  · simp only [hcall, run_served]
    refine ⟨_, _, fun rest => rfl, fun hok => ?_⟩
    rw [← hfields]
    exact fields_replaced hkratos hshows hactive (map_checked_ok.mp hok)

/-- A success takes two calls that are served. -/
theorem exists_two_served {events : List (Event (Fields → Fields))} {stored : Stored η}
    (h : (run kratos Stored.change events (scramblePassword crates password id, stored)).1 =
      .done (.ok ())) :
    ∃ before between rest, events = servedTwice before between rest := by
  rw [scramblePassword_eq] at h
  rcases exists_served events with ⟨before, rfl⟩ | ⟨before, after, rfl⟩
  · rw [run_map] at h
    cases h
  · rw [run_served] at h
    rcases exists_served after with ⟨between, rfl⟩ | ⟨between, rest, rfl⟩
    · rw [run_map] at h
      rcases afterRead_cases crates password
        (kratos (.getIdentity id false) (before.foldl Stored.change stored)).1 with
        ⟨error, hdone⟩ | ⟨identity, -, -, hcall⟩
      · cases hdone.symm.trans h
      · cases hcall.symm.trans h
    · exact ⟨before, between, rest, rfl⟩

/-- **No admin's change is undone exactly if** those between the read and the write leave the fields
as they were read. -/
theorem undone_iff (hkratos : IsKratos crates id kratos) (events : List (Event (Fields → Fields)))
    (stored : Stored η)
    (hok : (run kratos Stored.change events (scramblePassword crates password id, stored)).1 =
      .done (.ok ())) :
    (∀ now, now <+: events →
      (run kratos Stored.change now (scramblePassword crates password id, stored)).1 =
        .done (.ok ()) →
      (run kratos Stored.change now (scramblePassword crates password id, stored)).2.fields =
        alone (others now) stored.fields) ↔
      ∀ before between rest, events = servedTwice before between rest →
        alone between (alone before stored.fields) = alone before stored.fields := by
  constructor
  · rintro hsame before between rest rfl
    obtain ⟨result, stored', hrun, hfields⟩ :=
      @run_two_served _ crates id password kratos hkratos before between stored
    rw [hrun rest, run_done] at hok
    obtain rfl := Program.done.inj hok
    -- right after the write
    have hnow := hsame (servedTwice before between []) ⟨rest, servedTwice_append _ _ _ _⟩
      (by rw [hrun]; rfl)
    rw [hrun, others_servedTwice, alone_append, alone_append] at hnow
    exact hnow.symm.trans (hfields rfl)
  · rintro hunchanged now ⟨more, rfl⟩ hdone
    obtain ⟨before, between, rest, rfl⟩ := exists_two_served hdone
    obtain ⟨result, stored', hrun, hfields⟩ :=
      @run_two_served _ crates id password kratos hkratos before between stored
    rw [hrun rest, run_done] at hdone
    obtain rfl := Program.done.inj hdone
    have hsame := hunchanged before between (rest ++ more) (servedTwice_append _ _ _ _)
    rw [hrun rest, run_done, others_servedTwice, alone_append, alone_append, hsame, ← hfields rfl]
    exact fields_foldl _ _

end Runs

/-! ### An admin who deactivates the identity -/

/-- What a `GET` shows. -/
def shown (fields : Fields) : Json :=
  .obj [("id", .str "11111111-1111-1111-1111-111111111111"), ("schema_id", .str fields.schemaId),
    ("state", .str fields.state), ("traits", fields.traits),
    ("metadata_public", fields.metadataPublic), ("metadata_admin", fields.metadataAdmin)]

/-- A Kratos with one identity. -/
def oneIdentity : Server Call Call.Answer (Stored Unit) := fun call stored =>
  match call with
  | .getIdentity _ _ => (.response 200 (.ok (shown stored.fields)), stored)
  | .replaceIdentity _ body =>
    match body.get "schema_id", body.get "state", body.get "traits" with
    | some (.str schemaId), some (.str state), some traits =>
      (.response 200 (.ok .null), { stored with
        fields := ⟨schemaId, state, traits, (body.get "metadata_public").getD .null,
          (body.get "metadata_admin").getD .null⟩ })
    | _, _, _ => (.response 400 (.ok .null), stored)
  | .webhook _ _ => (.failed "not called", stored)
  | .profileApis _ _ => ([], stored)
  | .deleteIdentity _ | .deleteOidcLink _ _ | .deleteCredential _ _ | .removePasskey _
  | .listSessions _ | .revokeSession _ | .revokeAllSessions _ | .revokeConsentSessions _
  | .revokeLoginSessions _ | .revokeInBff _ => (.response 204 (.ok .null), stored)

theorem isKratos_oneIdentity :
    IsKratos sampleCrates 0x11111111111111111111111111111111 oneIdentity where
  shows := by
    rintro ⟨fields, ⟨⟩⟩ identity ⟨-, hidentity⟩
    obtain rfl := Option.some.inj (hidentity.symm.trans (rfl : _ = some _))
    exact ⟨rfl, rfl⟩
  keeps _ := rfl
  replaces := by
    intro stored body schemaId state traits hschema hstate htraits _
    simp only [oneIdentity, hschema, hstate, htraits]

def activeFields : Fields :=
  ⟨"default", "active", .obj [("email", .str "a@b.c")], .null, .obj [("note", .str "vip")]⟩

def deactivate (fields : Fields) : Fields := { fields with state := "inactive" }

/-- A deactivation after the write stands. -/
theorem deactivation_stands :
    let events := [.served, .served, .other deactivate]
    let (result, stored) := run oneIdentity Stored.change events
      (scramblePassword sampleCrates "x" 0x11111111111111111111111111111111, ⟨activeFields, ()⟩)
    result = .done (.ok ()) ∧ stored.fields = alone (others events) activeFields := by
  refine ⟨rfl, (undone_iff isKratos_oneIdentity [.served, .served, .other deactivate]
    ⟨activeFields, ()⟩ rfl).mpr ?_ _ (List.prefix_refl _) rfl⟩
  intro before between rest heq
  cases before with
  | cons change before => cases (List.cons.inj heq).1
  | nil =>
    cases between with
    | cons change between => cases (List.cons.inj (List.cons.inj heq).2).1
    | nil => rfl

/-- A deactivation between the read and the write is undone. -/
theorem deactivation_undone :
    let events := [.served, .other deactivate, .served]
    let (result, stored) := run oneIdentity Stored.change events
      (scramblePassword sampleCrates "x" 0x11111111111111111111111111111111, ⟨activeFields, ()⟩)
    result = .done (.ok ()) ∧ stored.fields.state = "active" ∧
      (alone (others events) activeFields).state = "inactive" :=
  ⟨rfl, rfl, rfl⟩

end Hooks

end WeaveAuth
