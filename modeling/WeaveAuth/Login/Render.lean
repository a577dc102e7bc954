import WeaveAuth.ForMathlib.HashMap
import WeaveAuth.ForMathlib.Html
import WeaveAuth.ForMathlib.Url
import WeaveAuth.Login.Flow
import WeaveAuth.Text

/-!
# Rendering flows

`login/src/render.rs`: from Kratos' flow nodes to HTML, which the page templates take as it is.
What a `Translator` makes of a text is left open.

## Implementation notes

A node is rendered into a `String` by appending; here too, so that the order of attributes and the
escaping of each can be read off. What the document is that was written is `RenderTree`'s matter.

The attributes of an element are written in the order of the source, and one that is not there is
the empty text.
-/

namespace WeaveAuth

namespace Login

open Bff (Json)

/-- The texts of one request's language. -/
structure Translator where
  message : UiText → String
  label : UiText → String
  fieldLabel : String → UiText → String

structure RenderRules where
  own : Url
  kratosOrigin : String
  /-- Provider id to file name. -/
  providerLogos : HashMap String String

/-- Kratos' WebAuthn and passkey entry points. -/
def triggers : List String :=
  ["oryWebAuthnRegistration", "oryWebAuthnLogin", "oryPasskeyLogin",
    "oryPasskeyLoginAutocompleteInit", "oryPasskeyRegistration", "oryPasskeySettingsRegistration"]

def escape (raw : String) : String :=
  String.ofList (raw.toList.flatMap fun c =>
    match c with
    | '&' => "&amp;".toList
    | '<' => "&lt;".toList
    | '>' => "&gt;".toList
    | '"' => "&quot;".toList
    | '\'' => "&#39;".toList
    | c => [c])

namespace RenderRules

/-- An https host only links to https. -/
def httpsOnly (urls : RenderRules) : Bool := urls.own.scheme = "https".toList

/-- `local`: the path and the query of a URL on this host or on Kratos'. -/
def toLocal (rules : UrlRules) (urls : RenderRules) (raw : String) : Option String := do
  let url ← Url.parse rules (some urls.own) raw.toList
  let origin := Url.asciiOrigin rules url
  if origin ≠ Url.asciiOrigin rules urls.own && origin ≠ urls.kratosOrigin.toList then none
  else
    match url.query with
    | some query => some (String.ofList (url.pathText ++ '?' :: query))
    | none => some (String.ofList url.pathText)

end RenderRules

/-! ### Messages -/

def messageKind (message : UiText) : String :=
  if message.kind = "error" then "error"
  else if message.kind = "success" then "success"
  else "info"

def messages (translator : Translator) (messages : List UiText) : String :=
  if messages.isEmpty then ""
  else
    messages.foldl (fun html message => html ++
      ("<li class=\"message message-" ++ messageKind message ++ "\">" ++
        escape (translator.message message) ++ "</li>")) "<ul class=\"messages\">" ++ "</ul>"

/-! ### Nodes -/

def idAttribute (id : String) : String :=
  if id.isEmpty then "" else " id=\"" ++ escape id ++ "\""

/-- `value` as Kratos sends it: a string, or a scalar that reads the same as one. -/
def valueText : Option Json → Option String
  | some (.str text) => some text
  | some (.int number) => some (toString number)
  | some (.float text) => some text
  | some (.bool flag) => some (toString flag)
  | _ => none

def knownTrigger (name : Option String) : Option String := name.filter (triggers.contains ·)

def triggerAttributes (input : InputAttributes) : String :=
  (match knownTrigger input.onclickTrigger with
    | some name => " data-wa-trigger=\"" ++ name ++ "\""
    | none => "") ++
  match knownTrigger input.onloadTrigger with
    | some name => " data-wa-onload=\"" ++ name ++ "\""
    | none => ""

def providerLogo (id : String) (urls : RenderRules) : String :=
  match urls.providerLogos.get id with
  | some file => "<img src=\"/providers/" ++ escape file ++ "\" alt=\"\" height=\"22\">"
  | none => ""

def valueAttribute (value : Option String) : String :=
  match value with
  | some value => " value=\"" ++ escape value ++ "\""
  | none => ""

def disabledAttribute (input : InputAttributes) : String :=
  if input.disabled then " disabled" else ""

section Input

variable (node : Node) (input : InputAttributes) (urls : RenderRules) (translator : Translator)

/-- A hidden input. -/
def renderHidden : String :=
  "<input type=\"hidden\" name=\"" ++ escape input.name ++ "\"" ++
    valueAttribute (valueText input.value) ++ triggerAttributes input ++ ">" ++
    messages translator node.messages

/-- What a button says: its label, else its value, else its name. -/
def buttonLabel : String :=
  (((node.nodeMeta.label.map (translator.fieldLabel input.name)).filter (!·.isEmpty)).or
    (valueText input.value)).getD input.name

/-- The logo of the provider that a button stands for. -/
def buttonLogo : String :=
  (((valueText input.value).filter fun _ => node.group = "oidc" && input.name = "provider").map
    (providerLogo · urls)).getD ""

/-- A submit or another button. -/
def renderButton (kind : String) : String :=
  "<button class=\"btn btn-" ++ escape node.group ++ "\" type=\"" ++ kind ++ "\" name=\"" ++
    escape input.name ++ "\"" ++ valueAttribute (valueText input.value) ++
    triggerAttributes input ++ disabledAttribute input ++ ">" ++ buttonLogo node input urls ++
    escape (buttonLabel node input translator) ++ "</button>" ++
    messages translator node.messages

def fieldKind : String :=
  if ["password", "number", "checkbox", "email", "tel", "url", "date",
    "datetime-local"].contains input.kind then input.kind else "text"

def fieldLabel : String :=
  (node.nodeMeta.label.map (translator.fieldLabel input.name)).getD ""

/-- An attribute that may be left out. -/
def stringAttribute (name : String) (value : Option String) : String :=
  match value with
  | some value => " " ++ name ++ "=\"" ++ escape value ++ "\""
  | none => ""

def numberAttribute (name : String) (value : Option ℕ) : String :=
  match value with
  | some value => " " ++ name ++ "=\"" ++ toString value ++ "\""
  | none => ""

/-- Any other input, with its label. -/
def renderField : String :=
  "<div class=\"field\"><label for=\"f-" ++ escape node.group ++ "-" ++ escape input.name ++
    "\">" ++ escape (fieldLabel node input translator) ++ "</label>" ++
    "<input type=\"" ++ fieldKind input ++ "\" id=\"f-" ++ escape node.group ++ "-" ++
    escape input.name ++ "\" name=\"" ++ escape input.name ++ "\"" ++
    valueAttribute (valueText input.value) ++ stringAttribute "autocomplete" input.autocomplete ++
    numberAttribute "maxlength" input.maxlength ++ stringAttribute "pattern" input.pattern ++
    (if input.required then " required" else "") ++ disabledAttribute input ++
    triggerAttributes input ++ ">" ++ messages translator node.messages ++ "</div>"

def renderInput : String :=
  if input.kind = "hidden" then renderHidden node input translator
  else if input.kind = "submit" ∨ input.kind = "button" then
    renderButton node input urls translator input.kind
  else renderField node input translator

end Input

def isLocalPath (raw : List Char) : Bool :=
  "/".toList.isPrefixOf raw && !"//".toList.isPrefixOf raw && !"/\\".toList.isPrefixOf raw

/-- A URL worth showing to a browser. -/
def isWebUrl (raw : List Char) (urls : RenderRules) : Bool :=
  let lower := toAsciiLowercase raw
  "https://".toList.isPrefixOf lower || ("http://".toList.isPrefixOf lower && !urls.httpsOnly) ||
    isLocalPath raw

def renderImg (img : ImgAttributes) : String :=
  let src := toAsciiLowercase img.src.toList
  if !(isLocalPath img.src.toList || "data:image/".toList.isPrefixOf src) then ""
  else
    "<img src=\"" ++ escape img.src ++ "\" alt=\"\"" ++ numberAttribute "width" img.width ++
      numberAttribute "height" img.height ++ idAttribute img.id ++ ">"

def renderAnchor (anchor : AnchorAttributes) (urls : RenderRules) (translator : Translator) :
    String :=
  let title := escape (translator.label anchor.title)
  if isWebUrl anchor.href.toList urls then
    "<a href=\"" ++ escape anchor.href ++ "\"" ++ idAttribute anchor.id ++ ">" ++ title ++ "</a>"
  else "<span" ++ idAttribute anchor.id ++ ">" ++ title ++ "</span>"

def renderText (text : TextAttributes) (translator : Translator) : String :=
  "<p class=\"node-text\"" ++ idAttribute text.id ++ ">" ++ escape (translator.label text.text) ++
    "</p>"

/-- A node, and its messages unless it is an input, which has them itself. -/
def renderNode (node : Node) (urls : RenderRules) (translator : Translator) : String :=
  match node.kind with
  | .input input => renderInput node input urls translator
  | .text text => renderText text translator ++ messages translator node.messages
  | .img img => renderImg img ++ messages translator node.messages
  | .a anchor => renderAnchor anchor urls translator ++ messages translator node.messages
  | .div div => "<div" ++ idAttribute div.id ++ "></div>" ++ messages translator node.messages
  | .script _ | .unknown => messages translator node.messages

/-- A script of Kratos, served from this host, with this request's nonce. -/
def renderScript (rules : UrlRules) (script : ScriptAttributes) (urls : RenderRules)
    (nonce : String) : String :=
  match urls.toLocal rules script.src with
  | none => ""
  | some src =>
    "<script src=\"" ++ escape src ++ "\"" ++ (if script.isAsync then " async" else "") ++
      stringAttribute "crossorigin" script.crossorigin ++
      stringAttribute "integrity" script.integrity ++
      stringAttribute "referrerpolicy" script.referrerpolicy ++ " nonce=\"" ++ nonce ++ "\"" ++
      idAttribute script.id ++ "></script>"

/-! ### Forms -/

/-- The field has a value, and nothing is to be said about it. -/
def isSettledField (node : Node) : Bool :=
  match node.kind with
  | .input input =>
    let filled := match input.value with
      | some (.str s) => !s.isEmpty
      | some .null | none => false
      | some _ => true
    node.group = "default" && !(["hidden", "submit", "button"].contains input.kind) && filled &&
      node.messages.isEmpty
  | _ => false

def isHiddenInput (node : Node) : Bool :=
  match node.kind with
  | .input input => input.kind = "hidden"
  | _ => false

def isHiddenDefault (node : Node) : Bool := node.group = "default" && isHiddenInput node

/-- The node is one of the chosen groups. -/
def chosen (groups : Option (List String)) (missingOnly : Bool) (node : Node) : Bool :=
  let inGroups := match groups with
    | none => true
    | some groups => groups.contains node.group || isHiddenDefault node
  inGroups && !(missingOnly && isSettledField node)

/-- There is something to see. -/
def shows (node : Node) : Bool :=
  match node.kind with
  | .script _ | .unknown => false
  | _ => !isHiddenInput node

/-- What is inside of the form. -/
def renderInside (node : Node) (urls : RenderRules) (translator : Translator) : String :=
  match node.kind with
  | .script _ => ""
  | _ => renderNode node urls translator

/-- And what comes after it. -/
def renderAfter (rules : UrlRules) (node : Node) (urls : RenderRules) (nonce : String) : String :=
  match node.kind with
  | .script script => renderScript rules script urls nonce
  | _ => ""

def formMethod (flow : Flow) : String :=
  if eqIgnoreAsciiCase flow.ui.method.toList "get".toList then "get" else "post"

def form (rules : UrlRules) (flow : Flow) (groups : Option (List String)) (missingOnly : Bool)
    (urls : RenderRules) (translator : Translator) (nonce : String) : Except String String :=
  let nodes := flow.ui.nodes.filter (chosen groups missingOnly)
  let finish := fun html => nodes.foldl (fun html node => html ++ renderAfter rules node urls nonce)
    html
  if nodes.any shows then
    match urls.toLocal rules flow.ui.action with
    | none => .error "the flow's form action is not on this host or Kratos'"
    | some action =>
      let html := "<form class=\"flow-form\" method=\"" ++ formMethod flow ++ "\" action=\"" ++
        escape action ++ "\">"
      .ok (finish (nodes.foldl (fun html node => html ++ renderInside node urls translator) html ++
        "</form>"))
  else .ok (finish "")

end Login

end WeaveAuth
