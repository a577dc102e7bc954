import WeaveAuth.Bff.LogoutToken
import WeaveAuth.ForMathlib.FormUrlencoded
import WeaveAuth.Http
import WeaveAuth.Login.Throttle

/-!
# What the throttle reads of a login

`login_attempt` of `login/src/proxy.rs` and what it reads a submission with. Kratos reads the same
body, with a parser of its own, which may take a key for another one and resolves repeated keys in
its own way. So a body in which that could make a difference is refused.

Parsing JSON is another crate's code: `from_slice` gives the members of an object in order, with
those that repeat.

## Main results

* `values_foldl_set`: fields that are not repeated have been read from one pair each
* `read_unambiguous`: whoever reads the body reads the same as the throttle

## What is left open

What Kratos reads of a body is any `Reader`: one that takes characters beyond ASCII in a key for
whatever it likes, beside the case of letters, and of a key that repeats the first value or the
last. The theorem is for each, so it does not rest on which parser Kratos has.

## How the proof goes

A field that is set a second time is remembered as `repeated`, and such a submission is refused. So
in the others each name has one pair at most, and of one pair the first is the last. In an object no
key may become one of the three by folding either: one beyond ASCII is refused, as is one that
differs from a key in case alone, and among the rest folding is lower-casing.
-/

namespace WeaveAuth

namespace Login

open Bff (Json)

/-- Why a login submission isn't forwarded. -/
inductive Refusal where
  | unsupportedEncoding
  /-- A body or key the throttle can't read the way Kratos does. -/
  | ambiguous
  | wait (remaining : ℕ)
  deriving DecidableEq

structure LoginFields where
  method : Option (List Char)
  identifier : Option (List Char)
  repeated : Bool
  deriving DecidableEq

namespace LoginFields

def default : LoginFields := ⟨none, none, false⟩

def setMethod (fields : LoginFields) (value : List Char) : LoginFields :=
  { fields with repeated := fields.repeated || fields.method.isSome, method := some value }

def setIdentifier (fields : LoginFields) (value : List Char) : LoginFields :=
  { fields with
    repeated := fields.repeated || fields.identifier.isSome, identifier := some value }

/-- One pair of a form. -/
def set (fields : LoginFields) (pair : List Char × List Char) : LoginFields :=
  if pair.1 = "method".toList then fields.setMethod pair.2
  else if pair.1 = "identifier".toList ∨ pair.1 = "password_identifier".toList then
    fields.setIdentifier pair.2
  else fields

def fromForm (body : List ℕ) : LoginFields := (FormUrlencoded.parse body).foldl set default

def keys : List (List Char) :=
  ["method".toList, "identifier".toList, "password_identifier".toList]

/-- `visit_map`; none where a value is not a string or a key may be read differently. -/
def visitMap (fields : LoginFields) : List (String × Json) → Option LoginFields
  | [] => some fields
  | (name, value) :: members =>
    if name.toList ∈ keys then
      match value.asStr with
      | none => none
      | some text =>
        if name.toList = "method".toList then visitMap (fields.setMethod text.toList) members
        else visitMap (fields.setIdentifier text.toList) members
    else if !name.toList.all isAscii || keys.any fun key => eqIgnoreAsciiCase key name.toList then
      none
    else visitMap fields members

/-- `value` is what `from_slice` makes of the body. -/
def fromJson (value : Option Json) : Except Refusal LoginFields :=
  match value with
  | some (.obj members) =>
    match visitMap default members with
    | none => .error .ambiguous
    | some fields => .ok fields
  | _ => .error .ambiguous

/-- Only a password submission has a secret to guess. -/
def throttledIdentifier (fields : LoginFields) : Option (List Char) :=
  let isPassword := fields.method = some "password".toList ∨ fields.method = none
  fields.identifier.filter fun identifier => isPassword && !(trim identifier).isEmpty

end LoginFields

/-- The code that `login_attempt` calls. -/
structure LoginEnv where
  /-- `serde_json::from_slice`. -/
  fromSlice : List ℕ → Option Json
  /-- SHA-256. -/
  digest : List Char → Key
  /-- `char::to_lowercase`. -/
  toLowercase : Char → List Char

section Attempt

variable (env : LoginEnv) (headers : HeaderMap) (body : List ℕ)

/-- The `Content-Type`, in lower case. -/
def contentType : List Char :=
  toAsciiLowercase (((headers.get .contentType).bind HeaderValue.toStr).getD [])

def isForm : Bool := "application/x-www-form-urlencoded".toList.isPrefixOf (contentType headers)

def isJson : Bool := "application/json".toList.isPrefixOf (contentType headers)

def loginFields : Except Refusal LoginFields :=
  if isForm headers then .ok (LoginFields.fromForm body)
  else if isJson headers then LoginFields.fromJson (env.fromSlice body)
  -- Kratos accepts other encodings too; a body the throttle can't read is not let past it.
  else .error .unsupportedEncoding

/-- `login_attempt`: none when the submission carries no password attempt. -/
def loginAttempt (throttle : LoginThrottle) (now : Instant) :
    Except Refusal (Option Key) × LoginThrottle :=
  match loginFields env headers body with
  | .error refusal => (.error refusal, throttle)
  | .ok fields =>
    if fields.repeated then (.error .ambiguous, throttle)
    else
      match fields.throttledIdentifier with
      | none => (.ok none, throttle)
      | some identifier =>
        let key := Key.of env.digest env.toLowercase identifier
        match throttle.admitKey key now with
        | (.admitted, throttle) => (.ok (some key), throttle)
        | (.wait remaining, throttle) => (.error (.wait remaining), throttle)

end Attempt

/-! ### Whoever reads the body -/

/-- How a parser may read an object: what it takes characters beyond ASCII for in a key, next to the
case of letters, and which of a key's values it takes. -/
structure Reader where
  fold : Char → List Char
  takesLast : Bool

namespace Reader

variable {α : Type} (r : Reader)

def foldKey (name : List Char) : List Char :=
  name.flatMap fun c => if isAscii c then [c.toLower] else r.fold c

def resolve (values : List α) : Option α :=
  if r.takesLast then values.getLast? else values.head?

/-- The value of a member of an object, under one of the names. -/
def readJson (names : List (List Char)) (members : List (String × Json)) : Option Json :=
  r.resolve ((members.filter fun member => r.foldKey member.1.toList ∈ names).map Prod.snd)

/-- The value of a pair of a form. -/
def readForm (names : List (List Char)) (pairs : List (List Char × List Char)) :
    Option (List Char) :=
  r.resolve ((pairs.filter fun pair => pair.1 ∈ names).map Prod.snd)

/-- What there is only one of, every reader takes. -/
theorem resolve_toList (value : Option α) : r.resolve value.toList = value := by
  rw [resolve]
  cases value <;> simp

end Reader

def methodNames : List (List Char) := ["method".toList]

def identifierNames : List (List Char) := ["identifier".toList, "password_identifier".toList]

namespace LoginFields

/-- The values of the pairs with one of the names. -/
def values (names : List (List Char)) (pairs : List (List Char × List Char)) :
    List (List Char) :=
  (pairs.filter fun pair => pair.1 ∈ names).map Prod.snd

theorem keys_eq : keys = methodNames ++ identifierNames := rfl

theorem method_not_mem_identifierNames : "method".toList ∉ identifierNames := by decide +kernel

/-- The fields a pair sets, in terms of the names. -/
theorem set_eq (fields : LoginFields) (pair : List Char × List Char) : fields.set pair =
    if pair.1 ∈ methodNames then fields.setMethod pair.2
    else if pair.1 ∈ identifierNames then fields.setIdentifier pair.2 else fields := by
  simp only [set, methodNames, identifierNames, List.mem_cons, List.not_mem_nil, or_false]

/-- **Fields that are not repeated have been read from one pair each**, or none. -/
theorem values_foldl_set {pairs : List (List Char × List Char)} {fields : LoginFields}
    (h : (pairs.foldl set fields).repeated = false) :
    fields.repeated = false ∧
    fields.method.toList ++ values methodNames pairs =
      (pairs.foldl set fields).method.toList ∧
    fields.identifier.toList ++ values identifierNames pairs =
      (pairs.foldl set fields).identifier.toList := by
  induction pairs generalizing fields with
  | nil => simpa [values] using h
  | cons pair pairs ih =>
    obtain ⟨hrepeated, hmethod, hidentifier⟩ := ih h
    rw [List.foldl_cons, ← hmethod, ← hidentifier]
    rw [set_eq] at hrepeated ⊢
    split_ifs at hrepeated ⊢ with hname hname'
    · have hother : pair.1 ∉ identifierNames := by
        rw [methodNames, List.mem_singleton] at hname
        rw [hname]
        exact method_not_mem_identifierNames
      obtain ⟨hold, hnone⟩ := Bool.or_eq_false_iff.mp hrepeated
      obtain hnone := Option.isSome_eq_false_iff.mp hnone
      refine ⟨hold, ?_, ?_⟩
      · rw [Option.isNone_iff_eq_none.mp hnone]
        simp [values, hname, setMethod]
      · simp [values, hother, setMethod]
    · obtain ⟨hold, hnone⟩ := Bool.or_eq_false_iff.mp hrepeated
      obtain hnone := Option.isSome_eq_false_iff.mp hnone
      refine ⟨hold, ?_, ?_⟩
      · simp [values, hname, setIdentifier]
      · rw [Option.isNone_iff_eq_none.mp hnone]
        simp [values, hname', setIdentifier]
    · exact ⟨hrepeated, by simp [values, hname], by simp [values, hname']⟩

/-! ### Members of an object -/

/-- The members that are strings, as pairs. -/
def strings (members : List (String × Json)) : List (List Char × List Char) :=
  members.filterMap fun member => member.2.asStr.map fun text => (member.1.toList, text.toList)

/-- A member that `visitMap` lets pass: under one of the keys it is a string, and no other key may
be read as one of them. -/
def Passes (member : String × Json) : Prop :=
  if member.1.toList ∈ keys then ∃ text, member.2 = .str text
  else member.1.toList.all isAscii = true ∧
    ∀ key ∈ keys, eqIgnoreAsciiCase key member.1.toList = false

theorem set_of_not_mem (fields : LoginFields) {name : List Char} (h : name ∉ keys)
    (value : List Char) : fields.set (name, value) = fields := by
  rw [keys_eq, List.mem_append, not_or] at h
  rw [set_eq, if_neg h.1, if_neg h.2]

theorem set_of_mem (fields : LoginFields) {name : List Char} (h : name ∈ keys)
    (value : List Char) : fields.set (name, value) =
      if name = "method".toList then fields.setMethod value else fields.setIdentifier value := by
  rw [set]
  split_ifs with hmethod hidentifier
  · rfl
  · rfl
  · rw [keys, List.mem_cons, List.mem_cons, List.mem_singleton] at h
    exact absurd (h.resolve_left hmethod) hidentifier

theorem eq_str_of_asStr {value : Json} {text : String} (h : value.asStr = some text) :
    value = .str text := by
  cases value with
  | str text' => rw [Option.some.inj h]
  | _ => cases h

/-- An object that is not refused is read as a form with the members that are strings. -/
theorem visitMap_eq_some {members : List (String × Json)} {fields fields' : LoginFields}
    (h : visitMap fields members = some fields') :
    (∀ member ∈ members, Passes member) ∧ fields' = (strings members).foldl set fields := by
  induction members generalizing fields with
  | nil => exact ⟨nofun, (Option.some.inj h).symm⟩
  | cons member members ih =>
    obtain ⟨name, value⟩ := member
    rw [visitMap] at h
    rw [List.forall_mem_cons, Passes]
    by_cases hname : name.toList ∈ keys
    · rw [if_pos hname] at h ⊢
      cases htext : value.asStr with
      | none =>
        rw [htext] at h
        cases h
      | some text =>
        rw [htext] at h
        dsimp only at h
        rw [← apply_ite fun fields => visitMap fields members] at h
        obtain ⟨hpasses, rfl⟩ := ih h
        refine ⟨⟨⟨text, eq_str_of_asStr htext⟩, hpasses⟩, ?_⟩
        simp only [strings, List.filterMap_cons, htext, Option.map_some, List.foldl_cons]
        rw [set_of_mem fields hname]
    · rw [if_neg hname] at h ⊢
      obtain ⟨hother, h⟩ := Option.ite_none_left_eq_some.mp h
      obtain ⟨hpasses, rfl⟩ := ih h
      simp only [Bool.or_eq_true, Bool.not_eq_true', not_or, Bool.not_eq_false,
        List.any_eq_true, not_exists, not_and, Bool.not_eq_true] at hother
      refine ⟨⟨hother, hpasses⟩, ?_⟩
      cases htext : value.asStr with
      | none => simp only [strings, List.filterMap_cons, htext, Option.map_none]
      | some text =>
        simp only [strings, List.filterMap_cons, htext, Option.map_some, List.foldl_cons]
        rw [set_of_not_mem fields hname]

theorem fromJson_ok {value : Option Json} {fields : LoginFields}
    (h : fromJson value = .ok fields) :
    ∃ members, value = some (.obj members) ∧ visitMap default members = some fields := by
  unfold fromJson at h
  split at h
  · next members =>
    split at h
    · cases h
    · next fields' hvisit =>
      obtain rfl := Except.ok.inj h
      exact ⟨members, rfl, hvisit⟩
  · cases h

end LoginFields

namespace Reader

open LoginFields

variable (r : Reader)

theorem foldKey_of_ascii {name : List Char} (h : name.all isAscii = true) :
    r.foldKey name = toAsciiLowercase name := by
  rw [foldKey, toAsciiLowercase, List.map_eq_flatMap]
  refine List.flatMap_congr fun c hc => if_pos ?_
  exact List.all_eq_true.mp h c hc

theorem ascii_keys : ∀ key ∈ keys, key.all isAscii = true ∧ toAsciiLowercase key = key := by
  decide +kernel

/-- No reader takes a member that passes for another one. -/
theorem foldKey_mem_iff {names : List (List Char)} (hnames : ∀ name ∈ names, name ∈ keys)
    {member : String × Json} (h : Passes member) :
    r.foldKey member.1.toList ∈ names ↔ member.1.toList ∈ names := by
  rw [Passes] at h
  split_ifs at h with hkey
  · obtain ⟨hascii, hlower⟩ := ascii_keys _ hkey
    rw [r.foldKey_of_ascii hascii, hlower]
  · obtain ⟨hascii, hother⟩ := h
    rw [r.foldKey_of_ascii hascii]
    refine iff_of_false (fun hmem => ?_) fun hmem => hkey (hnames _ hmem)
    have hkey' := hnames _ hmem
    have hne := hother _ hkey'
    rw [eqIgnoreAsciiCase, (ascii_keys _ hkey').2] at hne
    simp at hne

/-- The text of a member. -/
def ofText (text : List Char) : Json := .str (String.ofList text)

theorem filter_members {names : List (List Char)} (hnames : ∀ name ∈ names, name ∈ keys)
    {members : List (String × Json)} (h : ∀ member ∈ members, Passes member) :
    (members.filter fun member => r.foldKey member.1.toList ∈ names).map Prod.snd =
      (values names (strings members)).map ofText := by
  induction members with
  | nil => rfl
  | cons member members ih =>
    obtain ⟨hmember, hmembers⟩ := List.forall_mem_cons.mp h
    have ih := ih hmembers
    have hiff := r.foldKey_mem_iff hnames hmember
    obtain ⟨name, value⟩ := member
    by_cases hname : name.toList ∈ names
    · rw [Passes, if_pos (hnames _ hname)] at hmember
      obtain ⟨text, rfl⟩ := hmember
      rw [List.filter_cons_of_pos (by simpa [hiff] using hname), List.map_cons, ih]
      simp [strings, values, Json.asStr, hname, ofText]
    · rw [List.filter_cons_of_neg (by simpa [hiff] using hname), ih]
      cases htext : value.asStr <;> simp [strings, values, htext, hname]

theorem readJson_eq {names : List (List Char)} (hnames : ∀ name ∈ names, name ∈ keys)
    {members : List (String × Json)} (h : ∀ member ∈ members, Passes member)
    {value : Option (List Char)} (hvalue : value.toList = values names (strings members)) :
    r.readJson names members = value.map ofText := by
  rw [readJson, r.filter_members hnames h, ← hvalue, ← Option.toList_map, r.resolve_toList]

theorem readForm_eq {names : List (List Char)} {pairs : List (List Char × List Char)}
    {value : Option (List Char)} (hvalue : value.toList = values names pairs) :
    r.readForm names pairs = value := by
  rw [readForm, ← values, ← hvalue, r.resolve_toList]

end Reader

section Unambiguous

variable {env : LoginEnv} {headers : HeaderMap} {body : List ℕ} {throttle : LoginThrottle}
  {now : Instant} {attempt : Option Key}

/-- The fields a submission is let past with. -/
theorem loginAttempt_ok (h : (loginAttempt env headers body throttle now).1 = .ok attempt) :
    ∃ fields, loginFields env headers body = .ok fields ∧ fields.repeated = false ∧
      attempt = fields.throttledIdentifier.map (Key.of env.digest env.toLowercase) ∧
      ∀ key ∈ attempt, (throttle.admitKey key now).1 = .admitted := by
  rw [loginAttempt] at h
  split at h
  · cases h
  · next fields hfields =>
    split_ifs at h with hrepeated
    split at h
    · next hnone =>
      obtain rfl := Except.ok.inj h
      exact ⟨fields, hfields, by simpa using hrepeated, by rw [hnone]; rfl, nofun⟩
    · next identifier hidentifier =>
      dsimp only at h
      split at h
      · next throttle' hanswer =>
        obtain rfl := Except.ok.inj h
        refine ⟨fields, hfields, by simpa using hrepeated, by rw [hidentifier]; rfl,
          fun key hkey => ?_⟩
        rw [← Option.some.inj hkey, hanswer]
      · cases h

/-- **Whoever reads the body reads the same as the throttle.** A submission that is not refused has
been read for a method and an identifier, and by these alone it was decided whether it is counted
and for which key. Every reader of the body finds that method and that identifier, whichever of
repeated keys it takes, and in an object also whatever it takes keys for beyond ASCII or in another
case. -/
theorem read_unambiguous (h : (loginAttempt env headers body throttle now).1 = .ok attempt) :
    ∃ fields, loginFields env headers body = .ok fields ∧
      attempt = fields.throttledIdentifier.map (Key.of env.digest env.toLowercase) ∧
      (isForm headers = true → ∀ r : Reader,
        r.readForm methodNames (FormUrlencoded.parse body) = fields.method ∧
        r.readForm identifierNames (FormUrlencoded.parse body) = fields.identifier) ∧
      (isForm headers = false → isJson headers = true ∧
        ∃ members, env.fromSlice body = some (.obj members) ∧ ∀ r : Reader,
          r.readJson methodNames members = fields.method.map Reader.ofText ∧
          r.readJson identifierNames members = fields.identifier.map Reader.ofText) := by
  obtain ⟨fields, hfields, hrepeated, hattempt, -⟩ := loginAttempt_ok h
  refine ⟨fields, hfields, hattempt, fun hform r => ?_, fun hform => ?_⟩
  · rw [loginFields, if_pos hform] at hfields
    obtain rfl := Except.ok.inj hfields
    obtain ⟨-, hmethod, hidentifier⟩ := LoginFields.values_foldl_set hrepeated
    exact ⟨r.readForm_eq hmethod.symm, r.readForm_eq hidentifier.symm⟩
  · rw [loginFields, if_neg (by simp [hform])] at hfields
    split_ifs at hfields with hjson
    obtain ⟨members, hmembers, hvisit⟩ := LoginFields.fromJson_ok hfields
    obtain ⟨hpasses, rfl⟩ := LoginFields.visitMap_eq_some hvisit
    obtain ⟨-, hmethod, hidentifier⟩ := LoginFields.values_foldl_set hrepeated
    have hkeys := LoginFields.keys_eq
    refine ⟨hjson, members, hmembers, fun r => ⟨?_, ?_⟩⟩
    · exact r.readJson_eq (fun name hname => hkeys ▸ List.mem_append_left _ hname) hpasses
        hmethod.symm
    · exact r.readJson_eq (fun name hname => hkeys ▸ List.mem_append_right _ hname) hpasses
        hidentifier.symm

end Unambiguous

namespace Sample

def members : List (String × Json) :=
  [("method", .str "password"), ("identifier", .str "a"), ("password", .str "x")]

def body : List ℕ :=
  Utf8.encode
    "\x7b\"method\":\"password\",\"identifier\":\"a\",\"password\":\"x\"\x7d".toList

/-- What the crates make of that body, and of `a`. -/
def loginEnv : LoginEnv where
  fromSlice body' := if body' = body then some (.obj members) else none
  digest s :=
    if s = ['a'] then 0xca978112ca1bbdcafac231b39a23dc4da786eff8147c4e72b9807785afee48bb else 0
  toLowercase c := [c.toLower]

def headers : HeaderMap :=
  (∅ : HeaderMap).insert .contentType
    ⟨Utf8.encode "application/json".toList, by decide +kernel⟩

/-- A reader that takes the long s for an s, and the last of a key's values. -/
def reader : Reader := ⟨fun c => if c = 'ſ' then ['s'] else [c], true⟩

end Sample

/-- The identifier that such a reader finds is the one that is counted. -/
theorem read_unambiguous_json :
    (loginAttempt Sample.loginEnv Sample.headers Sample.body ⟨∅⟩ 0).1 =
      .ok (some (Key.of Sample.loginEnv.digest Sample.loginEnv.toLowercase ['a'])) ∧
    Sample.reader.readJson identifierNames Sample.members = some (Reader.ofText ['a']) := by
  have hok : (loginAttempt Sample.loginEnv Sample.headers Sample.body ⟨∅⟩ 0).1 =
      .ok (some (Key.of Sample.loginEnv.digest Sample.loginEnv.toLowercase ['a'])) := by
    decide +kernel
  obtain ⟨fields, hfields, -, -, hjson⟩ := read_unambiguous hok
  obtain ⟨-, members, hmembers, hread⟩ := hjson (by decide +kernel)
  have hidentifier : ∀ fields',
      loginFields Sample.loginEnv Sample.headers Sample.body = .ok fields' →
      fields'.identifier = some ['a'] := by
    rintro fields' hfields'
    have hread : loginFields Sample.loginEnv Sample.headers Sample.body =
        .ok ⟨some "password".toList, some ['a'], false⟩ := by decide +kernel
    rw [← Except.ok.inj (hread.symm.trans hfields')]
  have hsample : Sample.loginEnv.fromSlice Sample.body = some (.obj Sample.members) := by
    simp only [Sample.loginEnv, if_true]
  obtain rfl := Json.obj.inj (Option.some.inj (hsample.symm.trans hmembers))
  exact ⟨hok, by rw [(hread Sample.reader).2, hidentifier fields hfields]; rfl⟩

end Login

end WeaveAuth
