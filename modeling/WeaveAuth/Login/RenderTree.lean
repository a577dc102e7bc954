import WeaveAuth.Login.Render

/-!
# The documents that are rendered

For each function of the renderer, the document that it writes: its elements, and in their
attribute values and runs of text the strings of the flow and of the translations as they are,
without any escaping. A `name` and a `group` are also parts of longer values.

## Main results

* `toList_renderInside`: a node is rendered as its document, written
* `form_eq`: so is a whole form

## Implementation notes

There is one tree function for each function of the renderer, and one lemma that says that the
rendered text is the tree, written. So a change to the renderer is a change to one pair of these.
Where the renderer appends to a text in a loop, the lemma has the text so far as a prefix.
-/

namespace WeaveAuth

namespace Login

open Html (Attribute)

/-! ### The documents -/

def element (name : String) (attributes : List Attribute) (children : List Html.Node) : Html.Node :=
  .element ⟨name.toList, attributes⟩ children

def attr (name value : String) : Attribute := ⟨name.toList, some value.toList⟩

def optionalAttr (name : String) (value : Option String) : List Attribute :=
  Html.optional name.toList (value.map String.toList)

def idAttr (id : String) : List Attribute := if id.isEmpty then [] else [attr "id" id]

def triggerAttrs (input : InputAttributes) : List Attribute :=
  optionalAttr "data-wa-trigger" (knownTrigger input.onclickTrigger) ++
    optionalAttr "data-wa-onload" (knownTrigger input.onloadTrigger)

def messagesTree (translator : Translator) (messages : List UiText) : List Html.Node :=
  if messages.isEmpty then []
  else
    [element "ul" [attr "class" "messages"] (messages.map fun message =>
      element "li" [attr "class" ("message message-" ++ messageKind message)]
        (Html.run (translator.message message).toList))]

section Input

variable (node : Node) (input : InputAttributes) (urls : RenderRules) (translator : Translator)

def hiddenTree : List Html.Node :=
  element "input" ([attr "type" "hidden", attr "name" input.name] ++
    optionalAttr "value" (valueText input.value) ++ triggerAttrs input) [] ::
    messagesTree translator node.messages

def logoTree (file : String) : Html.Node :=
  element "img" [attr "src" ("/providers/" ++ file), attr "alt" "", attr "height" "22"] []

def buttonLogoTree : List Html.Node :=
  match ((valueText input.value).filter fun _ =>
    node.group = "oidc" && input.name = "provider").bind urls.providerLogos.get with
  | some file => [logoTree file]
  | none => []

def buttonTree (kind : String) : List Html.Node :=
  element "button" ([attr "class" ("btn btn-" ++ node.group), attr "type" kind,
    attr "name" input.name] ++ optionalAttr "value" (valueText input.value) ++ triggerAttrs input ++
    Html.flag "disabled".toList input.disabled)
    (buttonLogoTree node input urls ++
      Html.run (buttonLabel node input translator).toList) ::
    messagesTree translator node.messages

def fieldTree : List Html.Node :=
  let id := "f-" ++ node.group ++ "-" ++ input.name
  [element "div" [attr "class" "field"]
    (element "label" [attr "for" id] (Html.run (fieldLabel node input translator).toList) ::
      element "input" ([attr "type" (fieldKind input), attr "id" id, attr "name" input.name] ++
        optionalAttr "value" (valueText input.value) ++
        optionalAttr "autocomplete" input.autocomplete ++
        optionalAttr "maxlength" (input.maxlength.map toString) ++
        optionalAttr "pattern" input.pattern ++ Html.flag "required".toList input.required ++
        Html.flag "disabled".toList input.disabled ++ triggerAttrs input) [] ::
      messagesTree translator node.messages)]

def inputTree : List Html.Node :=
  if input.kind = "hidden" then hiddenTree node input translator
  else if input.kind = "submit" ∨ input.kind = "button" then
    buttonTree node input urls translator input.kind
  else fieldTree node input translator

end Input

def textTree (text : TextAttributes) (translator : Translator) : Html.Node :=
  element "p" (attr "class" "node-text" :: idAttr text.id)
    (Html.run (translator.label text.text).toList)

def imgTree (img : ImgAttributes) : List Html.Node :=
  let src := toAsciiLowercase img.src.toList
  if !(isLocalPath img.src.toList || "data:image/".toList.isPrefixOf src) then []
  else
    [element "img" ([attr "src" img.src, attr "alt" ""] ++
      optionalAttr "width" (img.width.map toString) ++
      optionalAttr "height" (img.height.map toString) ++ idAttr img.id) []]

def anchorTree (anchor : AnchorAttributes) (urls : RenderRules) (translator : Translator) :
    Html.Node :=
  let title := Html.run (translator.label anchor.title).toList
  if isWebUrl anchor.href.toList urls then
    element "a" (attr "href" anchor.href :: idAttr anchor.id) title
  else element "span" (idAttr anchor.id) title

def nodeTree (node : Node) (urls : RenderRules) (translator : Translator) : List Html.Node :=
  match node.kind with
  | .input input => inputTree node input urls translator
  | .text text => textTree text translator :: messagesTree translator node.messages
  | .img img => imgTree img ++ messagesTree translator node.messages
  | .a anchor => anchorTree anchor urls translator :: messagesTree translator node.messages
  | .div div => element "div" (idAttr div.id) [] :: messagesTree translator node.messages
  | .script _ => []
  | .unknown => messagesTree translator node.messages

def scriptTree (script : ScriptAttributes) (src nonce : String) : Html.Node :=
  element "script" (attr "src" src :: Html.flag "async".toList script.isAsync ++
    optionalAttr "crossorigin" script.crossorigin ++ optionalAttr "integrity" script.integrity ++
    optionalAttr "referrerpolicy" script.referrerpolicy ++ [attr "nonce" nonce] ++
    idAttr script.id) []

/-- A script that is not on this host or Kratos' is left out. -/
def scriptsTree (rules : UrlRules) (node : Node) (urls : RenderRules) (nonce : String) :
    List Html.Node :=
  match node.kind with
  | .script script =>
    match urls.toLocal rules script.src with
    | some src => [scriptTree script src nonce]
    | none => []
  | _ => []

/-- The form, if it shows anything, and the scripts after it. -/
def formTree (rules : UrlRules) (flow : Flow) (groups : Option (List String)) (missingOnly : Bool)
    (urls : RenderRules) (translator : Translator) (nonce : String) :
    Except String (List Html.Node) :=
  let nodes := flow.ui.nodes.filter (chosen groups missingOnly)
  let scripts := nodes.flatMap fun node => scriptsTree rules node urls nonce
  if nodes.any shows then
    match urls.toLocal rules flow.ui.action with
    | none => .error "the flow's form action is not on this host or Kratos'"
    | some action =>
      .ok (element "form" [attr "class" "flow-form", attr "method" (formMethod flow),
        attr "action" action] (nodes.flatMap fun node => nodeTree node urls translator) :: scripts)
  else .ok scripts

/-! ### What is written -/

theorem toList_escape (raw : String) : (escape raw).toList = Html.escape raw.toList := by
  rw [escape, String.toList_ofList]
  rfl

theorem toList_foldl {α : Type} (f : α → String) (l : List α) (html : String) :
    (l.foldl (fun html a => html ++ f a) html).toList =
      html.toList ++ l.flatMap fun a => (f a).toList := by
  induction l generalizing html with
  | nil => simp
  | cons a l ih => simp [ih]

theorem serialize_map {α : Type} (f : α → Html.Node) (l : List α) :
    Html.serialize (l.map f) = l.flatMap fun a => (f a).serialize := by
  induction l with
  | nil => rfl
  | cons a l ih => rw [List.map_cons, Html.serialize, ih, List.flatMap_cons]

/-- The attributes as they are written. -/
def written (attributes : List Attribute) : List Char := attributes.flatMap Attribute.serialize

theorem serialize_element (name : String) (h : Html.isVoid name.toList = false)
    (attributes : List Attribute) (children : List Html.Node) :
    (element name attributes children).serialize = '<' :: name.toList ++ written attributes ++
      '>' :: Html.serialize children ++ '<' :: '/' :: name.toList ++ ['>'] := by
  simp [element, Html.Node.serialize, Html.Tag.serialize, written, h]

theorem serialize_void (name : String) (h : Html.isVoid name.toList = true)
    (attributes : List Attribute) : (element name attributes []).serialize =
      '<' :: name.toList ++ written attributes ++ ['>'] := by
  simp [element, Html.Node.serialize, Html.Tag.serialize, written, h]

@[simp] theorem written_nil : written [] = [] := rfl

@[simp] theorem written_append (attributes attributes' : List Attribute) :
    written (attributes ++ attributes') = written attributes ++ written attributes' :=
  List.flatMap_append

@[simp] theorem written_attr (name value : String) (attributes : List Attribute) :
    written (attr name value :: attributes) = ' ' :: name.toList ++ '=' :: '"' ::
      Html.escape value.toList ++ '"' :: written attributes := by
  simp [written, attr, Attribute.serialize]

@[simp] theorem written_flag (name : String) (set : Bool) :
    written (Html.flag name.toList set) = if set then ' ' :: name.toList else [] := by
  cases set <;> simp [written, Html.flag, Attribute.serialize]

theorem written_optionalAttr (name : String) (value : Option String) :
    written (optionalAttr name value) = (stringAttribute name value).toList := by
  cases value with
  | none => rfl
  | some value =>
    simp [written, optionalAttr, Html.optional, stringAttribute, Attribute.serialize, toList_escape]

theorem toList_valueAttribute (value : Option String) :
    (valueAttribute value).toList = written (optionalAttr "value" value) := by
  rw [written_optionalAttr]
  cases value <;> simp [valueAttribute, stringAttribute]

/-- Digits need no escaping. -/
theorem escape_toDigits (n : ℕ) : Html.escape (Nat.toDigits 10 n) = Nat.toDigits 10 n := by
  refine Html.escape_of_isPlain (List.all_eq_true.mpr fun c hc => ?_)
  have hdigit := Nat.isDigit_of_mem_toDigits (by decide) (by decide) hc
  exact Html.isPlain_of_isAlphanum (by simp [Char.isAlphanum, hdigit])

theorem toList_numberAttribute (name : String) (value : Option ℕ) :
    (numberAttribute name value).toList = written (optionalAttr name (value.map toString)) := by
  rw [written_optionalAttr]
  cases value with
  | none => rfl
  | some value => simp [numberAttribute, stringAttribute, toList_escape, escape_toDigits]

theorem toList_idAttribute (id : String) : (idAttribute id).toList = written (idAttr id) := by
  rw [idAttribute, idAttr]
  split
  · rfl
  · simp [toList_escape]

theorem escape_of_knownTrigger {name : Option String} {trigger : String}
    (h : knownTrigger name = some trigger) : Html.escape trigger.toList = trigger.toList := by
  have hplain : ∀ trigger ∈ triggers, trigger.toList.all Html.isPlain = true := by
    simp only [triggers, List.forall_mem_cons, String.reduceToList]
    decide +kernel
  obtain ⟨-, hknown⟩ := Option.filter_eq_some_iff.mp h
  exact Html.escape_of_isPlain (hplain trigger (List.contains_iff_mem.mp hknown))

theorem written_trigger (name : String) (trigger : Option String) :
    written (optionalAttr name (knownTrigger trigger)) =
      match knownTrigger trigger with
      | some known => ' ' :: name.toList ++ '=' :: '"' :: known.toList ++ ['"']
      | none => [] := by
  rw [written_optionalAttr]
  cases h : knownTrigger trigger with
  | none => rfl
  | some known => simp [stringAttribute, toList_escape, escape_of_knownTrigger h]

theorem toList_triggerAttributes (input : InputAttributes) :
    (triggerAttributes input).toList = written (triggerAttrs input) := by
  unfold triggerAttrs triggerAttributes
  rw [written_append, written_trigger, written_trigger, String.toList_append]
  cases knownTrigger input.onclickTrigger <;> cases knownTrigger input.onloadTrigger <;> simp

theorem toList_disabledAttribute (input : InputAttributes) : (disabledAttribute input).toList =
    written (Html.flag "disabled".toList input.disabled) := by
  rw [written_flag, disabledAttribute]
  split <;> rfl

/-! ### Nodes -/

variable {node : Node} {input : InputAttributes} {urls : RenderRules} {translator : Translator}

theorem escape_messageKind (message : UiText) :
    Html.escape (messageKind message).toList = (messageKind message).toList := by
  rw [messageKind]
  split_ifs <;> decide

theorem toList_messages (ms : List UiText) :
    (messages translator ms).toList = Html.serialize (messagesTree translator ms) := by
  unfold messages messagesTree
  split
  · rfl
  · simp [toList_foldl, toList_escape, Html.serialize, serialize_map, serialize_element "ul" rfl,
      serialize_element "li" rfl, Html.escape_cons_of_isPlain, Html.isPlain, escape_messageKind]

theorem toList_renderHidden : (renderHidden node input translator).toList =
    Html.serialize (hiddenTree node input translator) := by
  unfold renderHidden hiddenTree
  simp [Html.serialize, serialize_void "input" rfl, toList_escape, toList_valueAttribute,
    toList_triggerAttributes, toList_messages, Html.escape_cons_of_isPlain, Html.isPlain]

theorem toList_buttonLogo : (buttonLogo node input urls).toList =
    Html.serialize (buttonLogoTree node input urls) := by
  unfold buttonLogo buttonLogoTree
  cases (valueText input.value).filter fun _ => node.group = "oidc" && input.name = "provider" with
  | none => rfl
  | some id =>
    rw [Option.map_some, Option.getD_some, Option.bind_some]
    unfold providerLogo
    cases urls.providerLogos.get id with
    | none => rfl
    | some file =>
      unfold logoTree
      simp [Html.serialize, serialize_void "img" rfl, toList_escape, Html.escape_cons_of_isPlain,
        Html.isPlain]

theorem toList_renderButton {kind : String} (hkind : kind = "submit" ∨ kind = "button") :
    (renderButton node input urls translator kind).toList =
      Html.serialize (buttonTree node input urls translator kind) := by
  have hplain : Html.escape kind.toList = kind.toList := by
    rcases hkind with rfl | rfl <;> rfl
  unfold renderButton buttonTree
  simp [Html.serialize, serialize_element "button" rfl, toList_escape, toList_valueAttribute,
    toList_triggerAttributes, toList_disabledAttribute, toList_buttonLogo, toList_messages,
    Html.escape_cons_of_isPlain, Html.isPlain, Html.serialize_append, hplain]

theorem escape_fieldKind :
    Html.escape (fieldKind input).toList = (fieldKind input).toList := by
  rw [fieldKind]
  split
  · next h =>
    simp only [List.contains_iff_mem, List.mem_cons, List.not_mem_nil, or_false] at h
    rcases h with h | h | h | h | h | h | h | h <;> (rw [h]; rfl)
  · rfl

theorem toList_renderField : (renderField node input translator).toList =
    Html.serialize (fieldTree node input translator) := by
  have hrequired : (if input.required = true then " required" else "").toList =
      written (Html.flag "required".toList input.required) := by
    rw [written_flag]
    split <;> rfl
  unfold renderField fieldTree
  simp [Html.serialize, serialize_element "div" rfl, serialize_element "label" rfl,
    serialize_void "input" rfl, toList_escape, toList_valueAttribute, written_optionalAttr,
    toList_numberAttribute, toList_triggerAttributes, toList_disabledAttribute, toList_messages,
    Html.escape_cons_of_isPlain, Html.isPlain, escape_fieldKind, hrequired]

theorem toList_renderInput : (renderInput node input urls translator).toList =
    Html.serialize (inputTree node input urls translator) := by
  unfold renderInput inputTree
  split_ifs with hhidden hbutton
  · exact toList_renderHidden
  · exact toList_renderButton hbutton
  · exact toList_renderField

theorem toList_renderText (text : TextAttributes) : (renderText text translator).toList =
    (textTree text translator).serialize := by
  unfold renderText textTree
  simp [serialize_element "p" rfl, toList_escape, toList_idAttribute, Html.escape_cons_of_isPlain,
    Html.isPlain]

theorem toList_renderImg (img : ImgAttributes) :
    (renderImg img).toList = Html.serialize (imgTree img) := by
  unfold renderImg imgTree
  dsimp only
  split
  · rfl
  · simp [Html.serialize, serialize_void "img" rfl, toList_escape, toList_numberAttribute,
      toList_idAttribute]

theorem toList_renderAnchor (anchor : AnchorAttributes) :
    (renderAnchor anchor urls translator).toList =
      (anchorTree anchor urls translator).serialize := by
  unfold renderAnchor anchorTree
  dsimp only
  split
  · simp [serialize_element "a" rfl, toList_escape, toList_idAttribute]
  · simp [serialize_element "span" rfl, toList_escape, toList_idAttribute]

theorem toList_renderInside : (renderInside node urls translator).toList =
    Html.serialize (nodeTree node urls translator) := by
  unfold renderInside nodeTree renderNode
  cases node.kind with
  | input input => exact toList_renderInput
  | text text => simp [Html.serialize, toList_renderText, toList_messages]
  | img img => simp [Html.serialize_append, toList_renderImg, toList_messages]
  | a anchor => simp [Html.serialize, toList_renderAnchor, toList_messages]
  | script script => rfl
  | div div =>
    simp [Html.serialize, serialize_element "div" rfl, toList_idAttribute, toList_messages]
  | unknown => exact toList_messages _

variable {rules : UrlRules} {nonce : String}

theorem toList_renderAfter (hnonce : Html.escape nonce.toList = nonce.toList) :
    (renderAfter rules node urls nonce).toList =
      Html.serialize (scriptsTree rules node urls nonce) := by
  unfold renderAfter scriptsTree renderScript
  cases node.kind with
  | script script =>
    dsimp only
    cases urls.toLocal rules script.src with
    | none => rfl
    | some src =>
      have hasync : (if script.isAsync = true then " async" else "").toList =
          written (Html.flag "async".toList script.isAsync) := by
        rw [written_flag]
        split <;> rfl
      unfold scriptTree
      simp [Html.serialize, serialize_element "script" rfl, toList_escape, written_optionalAttr,
        toList_idAttribute, hasync, hnonce]
  | _ => rfl

theorem toList_foldl_renderInside (nodes : List Node) (html : String) :
    (nodes.foldl (fun html node => html ++ renderInside node urls translator) html).toList =
      html.toList ++ Html.serialize (nodes.flatMap fun node => nodeTree node urls translator) := by
  rw [toList_foldl, Html.serialize_flatMap]
  simp only [toList_renderInside]

theorem toList_foldl_renderAfter (hnonce : Html.escape nonce.toList = nonce.toList)
    (nodes : List Node) (html : String) :
    (nodes.foldl (fun html node => html ++ renderAfter rules node urls nonce) html).toList =
      html.toList ++ Html.serialize (nodes.flatMap fun node =>
        scriptsTree rules node urls nonce) := by
  rw [toList_foldl, Html.serialize_flatMap]
  simp only [toList_renderAfter hnonce]

theorem escape_formMethod (flow : Flow) :
    Html.escape (formMethod flow).toList = (formMethod flow).toList := by
  rw [formMethod]
  split <;> rfl

/-- **What is rendered is the document, written.** -/
theorem form_eq (rules : UrlRules) (flow : Flow) (groups : Option (List String))
    (missingOnly : Bool) (urls : RenderRules) (translator : Translator)
    (hnonce : Html.escape nonce.toList = nonce.toList) :
    form rules flow groups missingOnly urls translator nonce =
      (formTree rules flow groups missingOnly urls translator nonce).map fun tree =>
        String.ofList (Html.serialize tree) := by
  unfold form formTree
  dsimp only
  split
  · cases urls.toLocal rules flow.ui.action with
    | none => rfl
    | some action =>
      refine congrArg Except.ok (String.toList_inj.mp ?_)
      rw [String.toList_ofList, toList_foldl_renderAfter hnonce, String.toList_append,
        toList_foldl_renderInside]
      simp [Html.serialize, serialize_element "form" rfl, toList_escape, escape_formMethod,
        Html.escape_cons_of_isPlain, Html.isPlain]
  · refine congrArg Except.ok (String.toList_inj.mp ?_)
    rw [String.toList_ofList, toList_foldl_renderAfter hnonce]
    rfl

end Login

end WeaveAuth
