import WeaveAuth.ForMathlib.Except
import WeaveAuth.ForMathlib.HashMap
import WeaveAuth.Login.Render
import WeaveAuth.Login.Template

/-!
# The catalog of texts

`login/src/i18n.rs`: the deployer's locale files, what is checked of them at startup, and which text
a message gets. That an id without a text is logged once is left out.

## Main results

* `loaded_of_load`: what a catalog that was loaded is sure to have
* `message_from_catalog`: every message has a text of the catalog, and which one that is

## What is left open

`LocaleRules` has what the other crates make of a file: the JSON of its text, and the texts of
errors. The directory is the list of its entries, in the order in which the system gives them, each
with what reading it gave. Every catalog of a theorem was made by `load`, so what it relies on is
what `load` has checked, and nothing is assumed of the files.

## Implementation notes

A message's text is looked for in several places, one after another (`sources`). That list is the
measure of `message`: what the code does with nested fallbacks is that the first place that gives a
text does. The files at the end are there for the hypothesis: a catalog that loads.
-/

namespace WeaveAuth

namespace Login

open Bff (Json)

/-! ### Ids and keys -/

/-- Longest language tag worth matching. -/
def maxTagLen : ℕ := 35

/-- The values that a text may use, for each key. -/
def contextNames : List (String × List String) :=
  [("InfoSelfServiceRecoveryMessageMaskedWithCodeSent", ["masked_address"]),
   ("ErrorValidationMinLength", ["min_length", "actual_length"]),
   ("ErrorValidationMaxLength", ["max_length", "actual_length"]),
   ("ErrorValidationPasswordMinLength", ["min_length", "actual_length"]),
   ("ErrorValidationPasswordMaxLength", ["max_length", "actual_length"]),
   ("ErrorValidationMinimum", ["minimum", "actual"]),
   ("ErrorValidationExclusiveMinimum", ["minimum", "actual"]),
   ("ErrorValidationMaximum", ["maximum", "actual"]),
   ("ErrorValidationExclusiveMaximum", ["maximum", "actual"]),
   ("ErrorValidationMultipleOf", ["base", "actual"]),
   ("ErrorValidationMaxItems", ["max_items", "actual_items"]),
   ("ErrorValidationMinItems", ["min_items", "actual_items"]),
   ("InfoSelfServiceLoginWith", ["provider", "provider_id"]),
   ("InfoSelfServiceLoginWithAndLink", ["provider"]),
   ("InfoSelfServiceLoginAAL2CodeAddress", ["address", "channel"]),
   ("InfoSelfServiceRegistrationWith", ["provider", "provider_id"]),
   ("InfoSelfServiceSettingsUpdateLinkOidc", ["provider"]),
   ("InfoSelfServiceSettingsUpdateUnlinkOidc", ["provider"]),
   ("InfoSelfServiceSettingsRemoveWebAuthn", ["display_name", "added_at", "added_at_unix"]),
   ("InfoSelfServiceSettingsRemovePasskey", ["display_name", "added_at", "added_at_unix"])]

/-- Kratos' label for a trait. -/
def generatedLabelId : ℕ := 1070002

/-- `MessageId::IDS`: Kratos' ids of messages with their keys. -/
def messageIds : List (ℕ × String) :=
  [(1010003, "InfoSelfServiceLoginReAuth"),
   (1010004, "InfoSelfServiceLoginMFA"),
   (1010012, "InfoSelfServiceLoginWebAuthnPasswordless"),
   (1010014, "InfoSelfServiceLoginCodeSent"),
   (1010016, "InfoSelfServiceLoginLink"),
   (1010019, "InfoSelfServiceLoginCodeMFA"),
   (1010020, "InfoSelfServiceLoginCodeMFAHint"),
   (1040005, "InfoSelfServiceRegistrationEmailWithCodeSent"),
   (1040009, "InfoSelfServiceRegistrationChooseCredentials"),
   (1050001, "InfoSelfServiceSettingsUpdateSuccess"),
   (1060001, "InfoSelfServiceRecoverySuccessful"),
   (1060002, "InfoSelfServiceRecoveryEmailSent"),
   (1060003, "InfoSelfServiceRecoveryEmailWithCodeSent"),
   (1060004, "InfoSelfServiceRecoveryMessageMaskedWithCodeSent"),
   (1060005, "InfoSelfServiceRecoveryAskForFullAddress"),
   (1060006, "InfoSelfServiceRecoveryAskToChooseAddress"),
   (1080001, "InfoSelfServiceVerificationEmailSent"),
   (1080002, "InfoSelfServiceVerificationSuccessful"),
   (1080003, "InfoSelfServiceVerificationEmailWithCodeSent"),
   (4000001, "ErrorValidationGeneric"),
   (4000002, "ErrorValidationRequired"),
   (4000003, "ErrorValidationMinLength"),
   (4000004, "ErrorValidationInvalidFormat"),
   (4000005, "ErrorValidationPasswordPolicyViolationGeneric"),
   (4000006, "ErrorValidationInvalidCredentials"),
   (4000007, "ErrorValidationDuplicateCredentials"),
   (4000008, "ErrorValidationTOTPVerifierWrong"),
   (4000009, "ErrorValidationIdentifierMissing"),
   (4000010, "ErrorValidationAddressNotVerified"),
   (4000011, "ErrorValidationNoTOTPDevice"),
   (4000012, "ErrorValidationLookupAlreadyUsed"),
   (4000013, "ErrorValidationNoWebAuthnDevice"),
   (4000014, "ErrorValidationNoLookup"),
   (4000015, "ErrorValidationSuchNoWebAuthnUser"),
   (4000016, "ErrorValidationLookupInvalid"),
   (4000017, "ErrorValidationMaxLength"),
   (4000018, "ErrorValidationMinimum"),
   (4000019, "ErrorValidationExclusiveMinimum"),
   (4000020, "ErrorValidationMaximum"),
   (4000021, "ErrorValidationExclusiveMaximum"),
   (4000022, "ErrorValidationMultipleOf"),
   (4000023, "ErrorValidationMaxItems"),
   (4000024, "ErrorValidationMinItems"),
   (4000025, "ErrorValidationUniqueItems"),
   (4000026, "ErrorValidationWrongType"),
   (4000027, "ErrorValidationDuplicateCredentialsOnOIDCLink"),
   (4000028, "ErrorValidationDuplicateCredentialsWithHints"),
   (4000029, "ErrorValidationConst"),
   (4000030, "ErrorValidationConstGeneric"),
   (4000031, "ErrorValidationPasswordIdentifierTooSimilar"),
   (4000032, "ErrorValidationPasswordMinLength"),
   (4000033, "ErrorValidationPasswordMaxLength"),
   (4000034, "ErrorValidationPasswordTooManyBreaches"),
   (4000035, "ErrorValidationNoCodeUser"),
   (4000036, "ErrorValidationTraitsMismatch"),
   (4000037, "ErrorValidationAccountNotFound"),
   (4000038, "ErrorValidationCaptchaError"),
   (4000039, "ErrorValidationPasswordNewSameAsOld"),
   (4000040, "ErrorValidationEmail"),
   (4000041, "ErrorValidationPhone"),
   (4010001, "ErrorValidationLoginFlowExpired"),
   (4010002, "ErrorValidationLoginNoStrategyFound"),
   (4010003, "ErrorValidationRegistrationNoStrategyFound"),
   (4010004, "ErrorValidationSettingsNoStrategyFound"),
   (4010005, "ErrorValidationRecoveryNoStrategyFound"),
   (4010006, "ErrorValidationVerificationNoStrategyFound"),
   (4010007, "ErrorValidationLoginRetrySuccess"),
   (4010008, "ErrorValidationLoginCodeInvalidOrAlreadyUsed"),
   (4010009, "ErrorValidationLoginLinkedCredentialsDoNotMatch"),
   (4010010, "ErrorValidationLoginAddressUnknown"),
   (4040001, "ErrorValidationRegistrationFlowExpired"),
   (4040002, "ErrorValidationRegistrationRetrySuccess"),
   (4040003, "ErrorValidationRegistrationCodeInvalidOrAlreadyUsed"),
   (4050001, "ErrorValidationSettingsFlowExpired"),
   (4060001, "ErrorValidationRecoveryRetrySuccess"),
   (4060002, "ErrorValidationRecoveryStateFailure"),
   (4060003, "ErrorValidationRecoveryMissingRecoveryToken"),
   (4060004, "ErrorValidationRecoveryTokenInvalidOrAlreadyUsed"),
   (4060005, "ErrorValidationRecoveryFlowExpired"),
   (4060006, "ErrorValidationRecoveryCodeInvalidOrAlreadyUsed"),
   (4070001, "ErrorValidationVerificationTokenInvalidOrAlreadyUsed"),
   (4070002, "ErrorValidationVerificationRetrySuccess"),
   (4070003, "ErrorValidationVerificationStateFailure"),
   (4070004, "ErrorValidationVerificationMissingVerificationToken"),
   (4070005, "ErrorValidationVerificationFlowExpired"),
   (4070006, "ErrorValidationVerificationCodeInvalidOrAlreadyUsed"),
   (5000001, "ErrorSystemGeneric"),
   (5000002, "ErrorSystemNoAuthenticationMethodsAvailable")]

/-- `LabelId::IDS`. -/
def labelIds : List (ℕ × String) :=
  [(1010001, "InfoSelfServiceLogin"),
   (1010002, "InfoSelfServiceLoginWith"),
   (1010005, "InfoSelfServiceLoginVerify"),
   (1010006, "InfoSelfServiceLoginTOTPLabel"),
   (1010007, "InfoLoginLookupLabel"),
   (1010008, "InfoSelfServiceLoginWebAuthn"),
   (1010009, "InfoLoginTOTP"),
   (1010010, "InfoLoginLookup"),
   (1010011, "InfoSelfServiceLoginContinueWebAuthn"),
   (1010013, "InfoSelfServiceLoginContinue"),
   (1010015, "InfoSelfServiceLoginCode"),
   (1010017, "InfoSelfServiceLoginAndLink"),
   (1010018, "InfoSelfServiceLoginWithAndLink"),
   (1010021, "InfoSelfServiceLoginPasskey"),
   (1010022, "InfoSelfServiceLoginPassword"),
   (1010023, "InfoSelfServiceLoginAAL2CodeAddress"),
   (1040001, "InfoSelfServiceRegistration"),
   (1040002, "InfoSelfServiceRegistrationWith"),
   (1040003, "InfoSelfServiceRegistrationContinue"),
   (1040004, "InfoSelfServiceRegistrationRegisterWebAuthn"),
   (1040006, "InfoSelfServiceRegistrationRegisterCode"),
   (1040007, "InfoSelfServiceRegistrationRegisterPasskey"),
   (1040008, "InfoSelfServiceRegistrationBack"),
   (1050002, "InfoSelfServiceSettingsUpdateLinkOidc"),
   (1050003, "InfoSelfServiceSettingsUpdateUnlinkOidc"),
   (1050004, "InfoSelfServiceSettingsUpdateUnlinkTOTP"),
   (1050005, "InfoSelfServiceSettingsTOTPQRCode"),
   (1050007, "InfoSelfServiceSettingsRevealLookup"),
   (1050008, "InfoSelfServiceSettingsRegenerateLookup"),
   (1050010, "InfoSelfServiceSettingsLookupSecretLabel"),
   (1050011, "InfoSelfServiceSettingsLookupConfirm"),
   (1050012, "InfoSelfServiceSettingsRegisterWebAuthn"),
   (1050013, "InfoSelfServiceSettingsRegisterWebAuthnDisplayName"),
   (1050016, "InfoSelfServiceSettingsDisableLookup"),
   (1050017, "InfoSelfServiceSettingsTOTPSecretLabel"),
   (1050018, "InfoSelfServiceSettingsRemoveWebAuthn"),
   (1050019, "InfoSelfServiceSettingsRegisterPasskey"),
   (1050020, "InfoSelfServiceSettingsRemovePasskey"),
   (1060007, "InfoSelfServiceRecoveryBack"),
   (1070001, "InfoNodeLabelInputPassword"),
   (1070003, "InfoNodeLabelSave"),
   (1070004, "InfoNodeLabelID"),
   (1070005, "InfoNodeLabelSubmit"),
   (1070006, "InfoNodeLabelVerifyOTP"),
   (1070007, "InfoNodeLabelEmail"),
   (1070008, "InfoNodeLabelResendOTP"),
   (1070009, "InfoNodeLabelContinue"),
   (1070010, "InfoNodeLabelRecoveryCode"),
   (1070011, "InfoNodeLabelVerificationCode"),
   (1070012, "InfoNodeLabelRegistrationCode"),
   (1070013, "InfoNodeLabelLoginCode"),
   (1070014, "InfoNodeLabelLoginAndLinkCredential"),
   (1070015, "InfoNodeLabelCaptcha"),
   (1070016, "InfoNodeLabelRecoveryAddress"),
   (1070017, "InfoNodeLabelPhoneNumber")]

/-- `from_id`: the key of an id; none stands for `Unknown`. -/
def fromId (ids : List (ℕ × String)) (id : ℕ) : Option String :=
  (ids.find? fun e => e.1 = id).map Prod.snd

def unknownKey : String := "Unknown"

/-- `key`. -/
def keyOf (variant : Option String) : String := variant.getD unknownKey

/-- The keys of a locale's messages. -/
def messageKeys : List String := messageIds.map Prod.snd ++ [unknownKey]

def labelKeys : List String := labelIds.map Prod.snd

/-! ### Locales -/

/-- One language file. -/
structure Locale where
  messages : HashMap String String
  labels : HashMap String String
  fields : HashMap String String

namespace Locale

/-- A section, which may be missing. -/
def sectionFromJson : Option Json → Option (HashMap String String)
  | none => some ∅
  | some (.obj members) =>
    members.foldlM (fun texts member => member.2.asStr.map (texts.insert member.1 ·)) ∅
  | _ => none

/-- The derived `Deserialize`: every section has a default, and there is no other. -/
def fromJson (json : Json) : Option Locale := do
  let sections ← match json with
    | .obj members =>
      let names := ["messages", "labels", "fields"]
      if (members.map Prod.fst).Nodup ∧ ∀ member ∈ members, member.1 ∈ names then
        some (names.map json.get)
      else none
    | .arr values => if values.length ≤ 3 then some (values.map some) else none
    | _ => none
  return {
    messages := ← sectionFromJson (sections[0]?.getD none)
    labels := ← sectionFromJson (sections[1]?.getD none)
    fields := ← sectionFromJson (sections[2]?.getD none) }

end Locale

/-- Other crates' code. -/
structure LocaleRules where
  /-- A `str`'s `Debug`. -/
  debug : String → String
  /-- `serde_json`'s syntax: a document, whose members are as it has them. -/
  parse : String → Except String Json
  /-- What `serde` says of a document of another shape. -/
  mismatch : String → String

/-! ### The checks -/

variable (rules : LocaleRules)

/-- No key but the known ones. -/
def checkKnown (path kind : String) (all : List String) (texts : HashMap String String) :
    Except String Unit :=
  match (texts.pairs.map Prod.fst).find? fun key => !all.contains key with
  | some key => .error (path ++ ": no " ++ kind ++ " named " ++ rules.debug key)
  | none => .ok ()

/-- The values that the text of a key may use. -/
def allowedNames (byKey : Bool) (key : String) : List String :=
  if byKey then ((contextNames.find? fun e => e.1 = key).map Prod.snd).getD []
  else ["title", "name"]

/-- The braces of one text, and the names in them. -/
def checkText (path : String) (byKey : Bool) (entry : String × String) : Except String Unit :=
  match placeholders entry.2 with
  | none =>
    .error (path ++ ": " ++ rules.debug entry.1 ++ " has a `\x7b` that is never closed")
  | some names =>
    match names.find? fun name => !(allowedNames byKey entry.1).contains name with
    | some name =>
      .error (path ++ ": " ++ rules.debug entry.1 ++ " has no placeholder " ++ rules.debug name)
    | none => .ok ()

namespace Locale

variable (locale : Locale)

def checkKeys (path : String) : Except String Unit := do
  checkKnown rules path "message" messageKeys locale.messages
  checkKnown rules path "label" labelKeys locale.labels
  locale.messages.pairs.forM (checkText rules path true)
  locale.labels.pairs.forM (checkText rules path true)
  locale.fields.pairs.forM (checkText rules path false)

/-- The default language has a text for every message and label. -/
def checkComplete (tag : String) : Except String Unit := do
  messageKeys.forM fun key =>
    if locale.messages.get key = none then
      .error ("the default locale " ++ tag ++ ".json has no message " ++ rules.debug key)
    else .ok ()
  labelKeys.forM fun key =>
    if locale.labels.get key = none then
      .error ("the default locale " ++ tag ++ ".json has no label " ++ rules.debug key)
    else .ok ()

end Locale

/-! ### Loading -/

/-- An entry of the directory: its path, the name of its file if that is Unicode, and what reading
it gives. -/
structure DirEntry where
  path : String
  fileName : Option String
  content : Except String String

structure Catalog where
  default : String
  locales : HashMap String Locale

def lowercase (s : String) : String := String.ofList (toAsciiLowercase s.toList)

/-- `str::strip_suffix`. -/
def stripSuffix (s ending : String) : Option String :=
  if ending.toList.isSuffixOf s.toList then
    some (String.ofList (s.toList.take (s.toList.length - ending.toList.length)))
  else none

def isTag (tag : String) : Bool :=
  !(tag.isEmpty || maxTagLen < tag.utf8ByteSize ||
    !(tag.toList.all fun c => c.isAlphanum || c = '-'))

/-- One file of the directory; another kind of file is passed over. -/
def loadEntry (dir : String) (locales : HashMap String Locale) (entry : DirEntry) :
    Except String (HashMap String Locale) :=
  match entry.fileName.bind (stripSuffix · ".json") with
  | none => .ok locales
  | some name => do
    let tag := lowercase name
    if !isTag tag then
      .error (entry.path ++ ": a locale tag is 1 to " ++ toString maxTagLen ++
        " letters, digits and `-`")
    else
      let raw ← entry.content.mapError fun error => "cannot read " ++ entry.path ++ ": " ++ error
      let json ← (rules.parse raw).mapError fun error =>
        "invalid locale " ++ entry.path ++ ": " ++ error
      match Locale.fromJson json with
      | none => .error ("invalid locale " ++ entry.path ++ ": " ++ rules.mismatch raw)
      | some locale => do
        locale.checkKeys rules entry.path
        if locales.get tag = none then .ok (locales.insert tag locale)
        else .error ("two locale files for " ++ rules.debug tag ++ " in " ++ dir)

def loadEntries (dir : String) :
    HashMap String Locale → List (Except String DirEntry) → Except String (HashMap String Locale)
  | locales, [] => .ok locales
  | locales, entry :: entries => do
    let entry ← entry.mapError fun error => "cannot list the locales in " ++ dir ++ ": " ++ error
    loadEntries dir (← loadEntry rules dir locales entry) entries

namespace Catalog

/-- `Catalog::load`, of a directory and its entries. -/
def load (dir : String) (entries : Except String (List (Except String DirEntry)))
    (default : String) : Except String Catalog := do
  let default := lowercase default
  let entries ← entries.mapError fun error => "cannot read the locales in " ++ dir ++ ": " ++ error
  let locales ← loadEntries rules dir ∅ entries
  match locales.get default with
  | none =>
    .error ("WA_DEFAULT_LOCALE is " ++ rules.debug default ++ " but " ++ dir ++ " has no " ++
      default ++ ".json")
  | some fallback => do
    fallback.checkComplete rules default
    return ⟨default, locales⟩

/-! ### Texts -/

variable (catalog : Catalog) (language : String)

/-- A text of one language, filled in. -/
def filled (texts : Locale → HashMap String String) (key : String)
    (context : List (String × Json)) (language : String) : Option String := do
  let locale ← catalog.locales.get language
  let template ← (texts locale).get key
  fill template context

/-- The text for `key` in the request's language, then in the default's. -/
def find (texts : Locale → HashMap String String) (key : String)
    (context : List (String × Json)) : Option String :=
  [language, catalog.default].findSome? (catalog.filled texts key context)

/-- A flow or field message. Never Kratos' own text. -/
def message (message : UiText) : String :=
  let id := fromId messageIds message.id
  ((catalog.find language Locale.messages (keyOf id) message.context).or
    (catalog.find language Locale.messages unknownKey [])).getD ""

/-- A button, link or text node; Kratos' own text when there is no translation. -/
def label (label : UiText) : String :=
  match fromId labelIds label.id with
  | none => label.text
  | some key => (catalog.find language Locale.labels key label.context).getD label.text

/-- A field's label. -/
def fieldLabel (name : String) (label : UiText) : String :=
  if label.id ≠ generatedLabelId then catalog.label language label
  else
    let key := (((Json.obj label.context).get "name").bind Json.asStr).getD name
    (catalog.find language Locale.fields key label.context).getD label.text

def translator : Translator where
  message := catalog.message language
  label := catalog.label language
  fieldLabel := catalog.fieldLabel language

end Catalog

/-! ### What was checked -/

/-- A message's text has no other values than its key may use. -/
def Locale.Checked (locale : Locale) : Prop :=
  ∀ key text, locale.messages.get key = some text →
    ∃ names, placeholders text = some names ∧ ∀ name ∈ names, name ∈ allowedNames true key

/-- What a catalog that was loaded is sure to have. -/
structure Loaded (catalog : Catalog) : Prop where
  checked : ∀ language locale, catalog.locales.get language = some locale → locale.Checked
  /-- The default language has a text for every message. -/
  complete : ∃ locale, catalog.locales.get catalog.default = some locale ∧
    ∀ key ∈ messageKeys, locale.messages.get key ≠ none

variable {rules}

open Fallible

theorem placeholders_of_checkText {path : String} {byKey : Bool} {entry : String × String}
    (h : checkText rules path byKey entry = .ok ()) :
    ∃ names, placeholders entry.2 = some names ∧
      ∀ name ∈ names, name ∈ allowedNames byKey entry.1 := by
  unfold checkText at h
  split at h
  · cases h
  · next names hnames =>
    split at h
    · cases h
    · next hfind =>
      refine ⟨names, hnames, fun name hname => ?_⟩
      simpa using List.find?_eq_none.mp hfind name hname

theorem Locale.checked_of_checkKeys {locale : Locale} {path : String}
    (h : locale.checkKeys rules path = .ok ()) : locale.Checked := by
  intro key text hget
  unfold Locale.checkKeys at h
  obtain ⟨-, -, h⟩ := bind_eq_ok.mp h
  obtain ⟨-, -, h⟩ := bind_eq_ok.mp h
  obtain ⟨⟨⟩, hmessages, -⟩ := bind_eq_ok.mp h
  obtain ⟨names, hnames, hallowed⟩ :=
    placeholders_of_checkText (forM_eq_ok.mp hmessages (key, text) (HashMap.mem_pairs.mpr hget))
  exact ⟨names, hnames, hallowed⟩

theorem Locale.complete_of_checkComplete {locale : Locale} {tag : String}
    (h : locale.checkComplete rules tag = .ok ()) {key : String} (hkey : key ∈ messageKeys) :
    locale.messages.get key ≠ none := by
  obtain ⟨⟨⟩, hmessages, -⟩ := bind_eq_ok.mp h
  intro hnone
  have := forM_eq_ok.mp hmessages key hkey
  rw [if_pos hnone] at this
  cases this

/-- The one step: what is read is checked. -/
theorem checked_of_loadEntry {dir : String} {locales locales' : HashMap String Locale}
    {entry : DirEntry} (h : loadEntry rules dir locales entry = .ok locales')
    (hchecked : ∀ language locale, locales.get language = some locale → locale.Checked) :
    ∀ language locale, locales'.get language = some locale → locale.Checked := by
  unfold loadEntry at h
  split at h
  · cases h
    exact hchecked
  · next name _ =>
    dsimp only at h
    split at h
    · cases h
    · obtain ⟨raw, -, h⟩ := bind_eq_ok.mp h
      obtain ⟨json, -, h⟩ := bind_eq_ok.mp h
      split at h
      · cases h
      · next read _ =>
        obtain ⟨⟨⟩, hread, h⟩ := bind_eq_ok.mp h
        split at h
        · cases h
          intro language locale hget
          rw [HashMap.get_insert] at hget
          split at hget
          · cases hget
            exact Locale.checked_of_checkKeys hread
          · exact hchecked language locale hget
        · cases h

theorem checked_of_loadEntries {dir : String} {locales locales' : HashMap String Locale}
    {entries : List (Except String DirEntry)}
    (h : loadEntries rules dir locales entries = .ok locales')
    (hchecked : ∀ language locale, locales.get language = some locale → locale.Checked) :
    ∀ language locale, locales'.get language = some locale → locale.Checked := by
  induction entries generalizing locales with
  | nil =>
    cases h
    exact hchecked
  | cons entry entries ih =>
    obtain ⟨_, -, h⟩ := bind_eq_ok.mp h
    obtain ⟨_, hentry, h⟩ := bind_eq_ok.mp h
    exact ih h (checked_of_loadEntry hentry hchecked)

theorem loaded_of_load {dir default : String}
    {entries : Except String (List (Except String DirEntry))} {catalog : Catalog}
    (h : Catalog.load rules dir entries default = .ok catalog) : Loaded catalog := by
  unfold Catalog.load at h
  obtain ⟨_, -, h⟩ := bind_eq_ok.mp h
  obtain ⟨locales, hlocales, h⟩ := bind_eq_ok.mp h
  split at h
  · cases h
  · next fallback hfallback =>
    obtain ⟨⟨⟩, hcomplete, h⟩ := bind_eq_ok.mp h
    cases h
    exact ⟨checked_of_loadEntries hlocales (by simp), fallback, hfallback,
      fun key => Locale.complete_of_checkComplete hcomplete⟩

/-! ### Which text a message gets -/

/-- Where a text is looked up: a language, a key, and the values to fill it with. -/
structure Source where
  language : String
  key : String
  context : List (String × Json)

/-- This text of the catalog's messages can be filled, and this is what it gives. -/
def Catalog.Gives (catalog : Catalog) (source : Source) (text : String) : Prop :=
  ∃ locale template, catalog.locales.get source.language = some locale ∧
    locale.messages.get source.key = some template ∧ fill template source.context = some text

/-- The text for the id in the language, then in the default's; then the same with the text for
what has none. -/
def sources (catalog : Catalog) (language : String) (message : UiText) : List Source :=
  let key := keyOf (fromId messageIds message.id)
  [⟨language, key, message.context⟩, ⟨catalog.default, key, message.context⟩,
   ⟨language, unknownKey, []⟩, ⟨catalog.default, unknownKey, []⟩]

section

variable {catalog : Catalog}

theorem gives_iff {source : Source} {text : String} :
    catalog.Gives source text ↔
      catalog.filled Locale.messages source.key source.context source.language = some text := by
  simp [Catalog.Gives, Catalog.filled, Option.bind_eq_some_iff]

theorem message_eq (language : String) (message : UiText) :
    catalog.message language message = ((sources catalog language message).findSome? fun source =>
      catalog.filled Locale.messages source.key source.context source.language).getD "" := by
  simp only [Catalog.message, Catalog.find, sources, List.findSome?_cons, List.findSome?_nil]
  split <;> [rfl; split] <;> rfl

/-- The last text is there, and needs no value. -/
theorem unknown_given (hloaded : Loaded catalog) :
    ∃ text, catalog.Gives ⟨catalog.default, unknownKey, []⟩ text := by
  obtain ⟨locale, hlocale, hcomplete⟩ := hloaded.complete
  obtain ⟨template, htemplate⟩ := Option.ne_none_iff_exists'.mp
    (hcomplete unknownKey (List.mem_append_right _ (List.mem_singleton_self _)))
  obtain ⟨found, hfound, hallowed⟩ := hloaded.checked _ locale hlocale _ _ htemplate
  have hnone : allowedNames true unknownKey = [] := by decide
  obtain ⟨_, -, -, hfill⟩ := fill_of_placeholders hfound
  have hsome := (hfill []).1.mpr fun name hname => by
    have := hallowed name hname
    rw [hnone] at this
    cases this
  obtain ⟨text, htext⟩ := Option.isSome_iff_exists.mp hsome
  exact ⟨text, locale, template, hlocale, htemplate, htext⟩

theorem message_congr (language : String) {message message' : UiText}
    (hid : message'.id = message.id)
    (hcontext : ∀ name,
      (Json.obj message'.context).get name = (Json.obj message.context).get name) :
    catalog.message language message' = catalog.message language message := by
  have hfilled : ∀ key, catalog.filled Locale.messages key message'.context =
      catalog.filled Locale.messages key message.context := by
    intro key
    funext language
    simp only [Catalog.filled, fill_congr hcontext]
  simp only [Catalog.message, Catalog.find, hid, hfilled]

end

/-- The text of a key: one has a placeholder. -/
def textOfKey (key : String) : String :=
  if key = "ErrorValidationMinLength" then "Use at least \x7bmin_length\x7d characters."
  else "Something went wrong."

/-- A document that has these texts, for every message and label. -/
def plainLocale : Json :=
  .obj [("messages", .obj (messageKeys.map fun key => (key, .str (textOfKey key)))),
    ("labels", .obj (labelKeys.map fun key => (key, .str (textOfKey key))))]

/-- One of its sections, as it stands in the file. -/
def plainSection (name : String) (keys : List String) : String :=
  "\"" ++ name ++ "\":\x7b" ++
    String.intercalate "," (keys.map fun key => "\"" ++ key ++ "\":\"" ++ textOfKey key ++ "\"") ++
    "\x7d"

/-- The file. -/
def plainFile : String :=
  "\x7b" ++ plainSection "messages" messageKeys ++ "," ++ plainSection "labels" labelKeys ++ "\x7d"

/-- These keys have their texts, and no others have any. -/
def Plain (texts : HashMap String String) (keys : List String) : Prop :=
  ∀ key, texts.get key = if key ∈ keys then some (textOfKey key) else none

theorem plain_sectionFromJson (keys : List String) : ∃ texts,
    Locale.sectionFromJson (some (.obj (keys.map fun key => (key, .str (textOfKey key))))) =
      some texts ∧ Plain texts keys := by
  have hfold : ∀ before : HashMap String String, ∃ texts,
      (keys.map fun key => (key, Json.str (textOfKey key))).foldlM
        (fun texts member => member.2.asStr.map (texts.insert member.1 ·)) before = some texts ∧
      ∀ key, texts.get key = if key ∈ keys then some (textOfKey key) else before.get key := by
    induction keys with
    | nil => exact fun before => ⟨before, rfl, by simp⟩
    | cons first keys ih =>
      intro before
      obtain ⟨texts, htexts, hget⟩ := ih (before.insert first (textOfKey first))
      refine ⟨texts, htexts, fun key => ?_⟩
      rw [hget, HashMap.get_insert]
      grind
  obtain ⟨texts, htexts, hget⟩ := hfold ∅
  exact ⟨texts, htexts, fun key => by simpa using hget key⟩

theorem eq_of_mem_plain {texts : HashMap String String} {keys : List String}
    (h : Plain texts keys) {entry : String × String} (hentry : entry ∈ texts.pairs) :
    entry.1 ∈ keys ∧ entry.2 = textOfKey entry.1 := by
  have hget := HashMap.mem_pairs.mp hentry
  rw [h] at hget
  split at hget
  · next hkey => exact ⟨hkey, (Option.some.inj hget).symm⟩
  · cases hget

section

variable (rules : LocaleRules)

theorem checkKnown_plain {texts : HashMap String String} {keys : List String}
    (h : Plain texts keys) (path kind : String) :
    checkKnown rules path kind keys texts = .ok () := by
  have hnone : ((texts.pairs.map Prod.fst).find? fun key => !keys.contains key) = none := by
    rw [List.find?_eq_none]
    intro key hkey
    obtain ⟨entry, hentry, rfl⟩ := List.mem_map.mp hkey
    simpa using (eq_of_mem_plain h hentry).1
  rw [checkKnown, hnone]

/-- The one placeholder is known. -/
theorem checkText_textOfKey (path key : String) :
    checkText rules path true (key, textOfKey key) = .ok () := by
  have hopen : placeholders "Use at least \x7bmin_length\x7d characters." =
      some ["min_length"] := by
    decide +kernel
  have hplain : placeholders "Something went wrong." = some [] := by decide +kernel
  have hallowed : (allowedNames true "ErrorValidationMinLength").contains "min_length" = true := by
    decide +kernel
  rw [checkText, textOfKey]
  split_ifs with hkey
  · rw [hopen, hkey]
    dsimp only
    rw [List.find?_cons_of_neg (by rw [hallowed, Bool.not_true]; exact Bool.false_ne_true)]
    rfl
  · rw [hplain]
    rfl

theorem checkText_plain {texts : HashMap String String} {keys : List String}
    (h : Plain texts keys) (path : String) :
    texts.pairs.forM (checkText rules path true) = .ok () := by
  refine forM_eq_ok.mpr fun entry hentry => ?_
  rw [← checkText_textOfKey rules path entry.1, ← (eq_of_mem_plain h hentry).2]

theorem forM_present {texts : HashMap String String} {keys : List String}
    (h : Plain texts keys) (error : String → String) :
    (keys.forM fun key => if texts.get key = none then .error (error key) else .ok ()) =
      Except.ok () := by
  refine forM_eq_ok.mpr fun key hkey => ?_
  rw [h, if_pos hkey]
  rfl

/-- The document passes every check. -/
theorem exists_plain : ∃ locale, Locale.fromJson plainLocale = some locale ∧
    (∀ path, locale.checkKeys rules path = .ok ()) ∧
    ∀ tag, locale.checkComplete rules tag = .ok () := by
  obtain ⟨messages, hmessages, hm⟩ := plain_sectionFromJson messageKeys
  obtain ⟨labels, hlabels, hl⟩ := plain_sectionFromJson labelKeys
  refine ⟨⟨messages, labels, ∅⟩, ?_, fun path => ?_, fun tag => ?_⟩
  · have hempty : Locale.sectionFromJson none = some ∅ := rfl
    simp [Locale.fromJson, plainLocale, Json.get, hmessages, hlabels, hempty]
  · simp only [Locale.checkKeys, checkKnown_plain rules hm, checkKnown_plain rules hl,
      checkText_plain rules hm, checkText_plain rules hl]
    rfl
  · simp only [Locale.checkComplete, forM_present hm, forM_present hl]
    rfl

end

/-- What the other crates make of the file. -/
def plainRules : LocaleRules where
  debug := id
  parse raw := if raw = plainFile then .ok plainLocale else .error "expected value"
  mismatch := id

def localeEntry (tag : String) : DirEntry :=
  ⟨"locales/" ++ tag ++ ".json", some (tag ++ ".json"), .ok plainFile⟩

theorem stripSuffix_append (s ending : String) : stripSuffix (s ++ ending) ending = some s := by
  simp [stripSuffix]

theorem parse_plainFile : plainRules.parse plainFile = .ok plainLocale := by
  simp only [plainRules, if_true]

theorem loadEntry_localeEntry {locales : HashMap String Locale} {locale : Locale}
    {tag : String} (hread : Locale.fromJson plainLocale = some locale)
    (hkeys : ∀ path, locale.checkKeys plainRules path = .ok ())
    (htag : lowercase tag = tag ∧ isTag tag = true) (hnew : locales.get tag = none) :
    loadEntry plainRules "locales" locales (localeEntry tag) =
      .ok (locales.insert tag locale) := by
  have hname : (localeEntry tag).fileName.bind (stripSuffix · ".json") = some tag :=
    stripSuffix_append tag ".json"
  have htag' : ¬ (!isTag tag) = true := by simp [htag.2]
  rw [loadEntry, hname]
  dsimp only
  rw [htag.1, if_neg htag']
  refine bind_eq_ok.mpr ⟨plainFile, rfl, bind_eq_ok.mpr ⟨plainLocale, ?_, ?_⟩⟩
  · rw [parse_plainFile, Except.mapError]
  rw [hread]
  exact bind_eq_ok.mpr ⟨_, hkeys _, if_pos hnew⟩

/-- A directory with these files can be loaded. -/
theorem load_plain (tags : List String) (hnodup : tags.Nodup)
    (htags : ∀ tag ∈ tags, lowercase tag = tag ∧ isTag tag = true)
    {default : String} (hdefault : default ∈ tags) :
    ∃ catalog, Catalog.load plainRules "locales"
        (.ok (tags.map fun tag => .ok (localeEntry tag))) default = .ok catalog ∧
      catalog.default = default ∧ ∀ tag, catalog.locales.get tag ≠ none ↔ tag ∈ tags := by
  obtain ⟨locale, hread, hkeys, hcomplete⟩ := exists_plain plainRules
  have hentries : ∀ (rest : List String) (locales : HashMap String Locale), rest.Nodup →
      (∀ tag ∈ rest, tag ∈ tags) → (∀ tag ∈ rest, locales.get tag = none) →
      ∃ locales', loadEntries plainRules "locales" locales
        (rest.map fun tag => .ok (localeEntry tag)) = .ok locales' ∧
        ∀ tag, locales'.get tag = if tag ∈ rest then some locale else locales.get tag := by
    intro rest
    induction rest with
    | nil => exact fun locales _ _ _ => ⟨locales, rfl, by simp⟩
    | cons first rest ih =>
      intro locales hrest hmem hnew
      obtain ⟨hfirst, hrest⟩ := List.nodup_cons.mp hrest
      obtain ⟨hfirstMem, hmem⟩ := List.forall_mem_cons.mp hmem
      obtain ⟨hfirstNew, hnew⟩ := List.forall_mem_cons.mp hnew
      have hnew' : ∀ tag ∈ rest, (locales.insert first locale).get tag = none := by
        intro tag htag
        rw [HashMap.get_insert_ne _ (by rintro rfl; exact hfirst htag)]
        exact hnew tag htag
      obtain ⟨locales', hload, hget⟩ := ih _ hrest hmem hnew'
      have hentry := loadEntry_localeEntry hread hkeys (htags first hfirstMem) hfirstNew
      refine ⟨locales', bind_eq_ok.mpr ⟨_, rfl, bind_eq_ok.mpr ⟨_, hentry, hload⟩⟩, fun tag => ?_⟩
      rw [hget, HashMap.get_insert]
      grind
  obtain ⟨locales, hload, hget⟩ := hentries tags ∅ hnodup (fun tag => id) fun tag _ => rfl
  have hfallback : locales.get default = some locale := by rw [hget, if_pos hdefault]
  refine ⟨⟨default, locales⟩, ?_, rfl, fun tag => by rw [hget]; simp⟩
  unfold Catalog.load
  refine bind_eq_ok.mpr ⟨_, rfl, bind_eq_ok.mpr ⟨_, hload, ?_⟩⟩
  rw [(htags default hdefault).1, hfallback]
  exact bind_eq_ok.mpr ⟨_, hcomplete _, rfl⟩

end Login

end WeaveAuth
