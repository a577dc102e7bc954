import WeaveAuth.Login.RenderTree

/-!
# Nothing is injected into a form

Every element of a rendered form has one of the shapes that the renderer writes, and the strings of
the flow and of the translations are in its attribute values and in its text, where reading the
form finds them as they were. A script is one of Kratos' script nodes, on this host or on Kratos',
with the nonce of the page.

## Main results

* `blocks_nodeTree`: a node is written with the shapes of a form, which have no script among them
* `form_document`: a rendered form is read as the document it was written from
* `group_is_part`: a group is written as a part of an attribute's value

## What is compared

A form is read by a tokenizer and a tree builder that follow the standard and know nothing of the
renderer (`ForMathlib.Html`). What is said of the form is said of the document that they read.

## What is left out

The page around the form, which is the template engine's, and what a script does that Kratos sends a
node for: where it comes from and which nonce it has is all there is to say of it here.
-/

namespace WeaveAuth

namespace Login

open Html (Attribute)

/-! ### Shapes -/

/-- What the form is made of: a name, and the attributes in their order, each of which may be
missing. -/
def formShapes : List (String × List String) :=
  [("form", ["class", "method", "action"]),
    ("ul", ["class"]),
    ("li", ["class"]),
    ("input", ["type", "name", "value", "data-wa-trigger", "data-wa-onload"]),
    ("button", ["class", "type", "name", "value", "data-wa-trigger", "data-wa-onload", "disabled"]),
    ("div", ["class"]),
    ("label", ["for"]),
    ("input", ["type", "id", "name", "value", "autocomplete", "maxlength", "pattern", "required",
      "disabled", "data-wa-trigger", "data-wa-onload"]),
    ("p", ["class", "id"]),
    ("img", ["src", "alt", "height"]),
    ("img", ["src", "alt", "width", "height", "id"]),
    ("a", ["href", "id"]),
    ("span", ["id"]),
    ("div", ["id"])]

def scriptShape : String × List String :=
  ("script", ["src", "async", "crossorigin", "integrity", "referrerpolicy", "nonce", "id"])

/-- The attributes are among these, in this order. -/
def Among (attributes : List Attribute) (names : List String) : Prop :=
  (attributes.map Attribute.name).Sublist (names.map String.toList)

/-- The element has one of the shapes. -/
def HasShape (shapes : List (String × List String)) (tag : Html.Tag) : Prop :=
  ∃ shape ∈ shapes, tag.name = shape.1.toList ∧ Among tag.attributes shape.2

theorem HasShape.mono {shapes shapes' : List (String × List String)} {tag : Html.Tag}
    (h : HasShape shapes tag) (hsub : shapes ⊆ shapes') : HasShape shapes' tag := by
  obtain ⟨shape, hmem, hshape⟩ := h
  exact ⟨shape, hsub hmem, hshape⟩

/-- The names can be read. -/
def Readable (shapes : List (String × List String)) : Prop :=
  ∀ shape ∈ shapes, Html.isName shape.1.toList = true ∧
    ∀ name ∈ shape.2, Html.isName name.toList = true

theorem readable_shapes : Readable (scriptShape :: formShapes) := by
  unfold Readable
  decide +kernel

section Among

variable {attributes attributes' : List Attribute} {names names' : List String}

theorem among_attr (name value : String) : Among [attr name value] [name] := List.Sublist.refl _

theorem among_optionalAttr (name : String) (value : Option String) :
    Among (optionalAttr name value) [name] :=
  Html.optional_sublist _ _

theorem among_flag (name : String) (set : Bool) : Among (Html.flag name.toList set) [name] :=
  Html.flag_sublist _ _

theorem among_idAttr (id : String) : Among (idAttr id) ["id"] := by
  rw [idAttr]
  split
  · exact List.nil_sublist _
  · exact among_attr _ _

theorem Among.append (h : Among attributes names) (h' : Among attributes' names') :
    Among (attributes ++ attributes') (names ++ names') := by
  rw [Among, List.map_append, List.map_append]
  exact List.Sublist.append h h'

theorem Among.cons {name value : String} (h : Among attributes names) :
    Among (attr name value :: attributes) (name :: names) :=
  (among_attr name value).append h

/-- An attribute that is not among them is not there. -/
theorem Among.filter_eq_nil (h : Among attributes names) {name : String} (hname : name ∉ names) :
    (attributes.filter fun a => a.name = name.toList) = [] := by
  refine List.filter_eq_nil_iff.mpr fun a ha heq => ?_
  obtain ⟨n, hn, hna⟩ := List.mem_map.mp (h.subset (List.mem_map_of_mem ha))
  rw [← String.toList_inj.mp (hna.trans (of_decide_eq_true heq))] at hname
  exact hname hn

theorem among_triggerAttrs (input : InputAttributes) :
    Among (triggerAttrs input) ["data-wa-trigger", "data-wa-onload"] :=
  (among_optionalAttr _ _).append (among_optionalAttr _ _)

end Among

/-! ### Documents of these shapes -/

/-- The document can be read, and its elements have these shapes. -/
structure Sound (shapes : List (String × List String)) (nodes : List Html.Node) : Prop where
  wellFormed : Html.WellFormed nodes
  shaped : ∀ e ∈ Html.elements nodes, HasShape shapes e.1

/-- And it is no text. -/
structure Blocks (shapes : List (String × List String)) (nodes : List Html.Node) : Prop
    extends Sound shapes nodes where
  noText : ∀ node ∈ nodes, node.isText = false

variable {shapes : List (String × List String)} {nodes nodes' : List Html.Node}

theorem blocks_nil : Blocks shapes [] := ⟨⟨trivial, nofun⟩, nofun⟩

theorem sound_run (content : List Char) : Sound shapes (Html.run content) := by
  refine ⟨Html.wellFormed_run content, ?_⟩
  rw [Html.elements_run]
  exact nofun

theorem Blocks.sound_append (h : Blocks shapes nodes) (h' : Sound shapes nodes') :
    Sound shapes (nodes ++ nodes') := by
  refine ⟨Html.wellFormed_append h.wellFormed h.noText h'.wellFormed, fun e he => ?_⟩
  rw [Html.elements_append, List.mem_append] at he
  exact he.elim (h.shaped e) (h'.shaped e)

theorem Blocks.append (h : Blocks shapes nodes) (h' : Blocks shapes nodes') :
    Blocks shapes (nodes ++ nodes') := by
  refine ⟨h.sound_append h'.toSound, fun node hnode => ?_⟩
  exact (List.mem_append.mp hnode).elim (h.noText node) (h'.noText node)

theorem Blocks.flatMap {α : Type} {f : α → List Html.Node} {l : List α}
    (h : ∀ a ∈ l, Blocks shapes (f a)) : Blocks shapes (l.flatMap f) := by
  induction l with
  | nil => exact blocks_nil
  | cons a l ih =>
    rw [List.forall_mem_cons] at h
    exact h.1.append (ih h.2)

/-- **An element of one of the shapes, with sound children.** -/
theorem blocks_element (hreadable : Readable shapes) {name : String} {names : List String}
    (hshape : (name, names) ∈ shapes) {attributes : List Attribute}
    (hamong : Among attributes names) {children : List Html.Node}
    (hvoid : Html.isVoid name.toList = false ∨ children = [])
    (hchildren : Sound shapes children) :
    Blocks shapes [element name attributes children] := by
  obtain ⟨hname, hnames⟩ := hreadable _ hshape
  refine ⟨⟨⟨⟨hname, fun a ha => ?_, fun h => ?_, hchildren.wellFormed⟩, fun h => ?_, trivial⟩,
    fun e he => ?_⟩, ?_⟩
  · obtain ⟨n, hn, heq⟩ := List.mem_map.mp (hamong.subset (List.mem_map_of_mem ha))
    rw [← heq]
    exact hnames n hn
  · exact hvoid.resolve_left fun hnot => by simp [hnot] at h
  · cases h
  · rw [Html.elements, Html.elements, List.append_nil, element, Html.Node.elements,
      List.mem_cons] at he
    obtain rfl | he := he
    · exact ⟨_, hshape, rfl, hamong⟩
    · exact hchildren.shaped e he
  · intro node hnode
    rw [List.mem_singleton.mp hnode]
    rfl

theorem blocks_cons {node : Html.Node} (h : Blocks shapes [node]) (h' : Blocks shapes nodes) :
    Blocks shapes (node :: nodes) :=
  h.append h'

/-! ### The documents of the nodes -/

theorem readable_formShapes : Readable formShapes :=
  fun shape hshape => readable_shapes shape (List.mem_cons_of_mem _ hshape)

theorem blocks_of_shape {name : String} (names : List String)
    (hshape : (name, names) ∈ formShapes) {attributes : List Attribute}
    (hamong : Among attributes names) {children : List Html.Node}
    (hvoid : Html.isVoid name.toList = false ∨ children = [])
    (hchildren : Sound formShapes children) :
    Blocks formShapes [element name attributes children] :=
  blocks_element readable_formShapes hshape hamong hvoid hchildren

variable {node : Node} {input : InputAttributes} {urls : RenderRules} {translator : Translator}

theorem blocks_messagesTree (ms : List UiText) :
    Blocks formShapes (messagesTree translator ms) := by
  rw [messagesTree]
  split
  · exact blocks_nil
  · refine blocks_of_shape ["class"] (by simp [formShapes]) (among_attr _ _) (.inl rfl) ?_
    rw [List.map_eq_flatMap]
    refine (Blocks.flatMap fun message _ => ?_).toSound
    exact blocks_of_shape ["class"] (by simp [formShapes]) (among_attr _ _) (.inl rfl)
      (sound_run _)

theorem blocks_hiddenTree : Blocks formShapes (hiddenTree node input translator) := by
  refine blocks_cons (blocks_of_shape ["type", "name", "value", "data-wa-trigger", "data-wa-onload"]
    (by simp [formShapes]) ?_ (.inr rfl) blocks_nil.toSound) (blocks_messagesTree _)
  exact ((among_attr "name" _).cons.append (among_optionalAttr _ _)).append (among_triggerAttrs _)

theorem blocks_buttonLogoTree : Blocks formShapes (buttonLogoTree node input urls) := by
  rw [buttonLogoTree]
  split
  · exact blocks_of_shape ["src", "alt", "height"] (by simp [formShapes])
      (among_attr _ _).cons.cons (.inr rfl) blocks_nil.toSound
  · exact blocks_nil

theorem blocks_buttonTree (kind : String) :
    Blocks formShapes (buttonTree node input urls translator kind) := by
  refine blocks_cons (blocks_of_shape ["class", "type", "name", "value", "data-wa-trigger",
    "data-wa-onload", "disabled"] (by simp [formShapes]) ?_ (.inl rfl)
    (blocks_buttonLogoTree.sound_append (sound_run _))) (blocks_messagesTree _)
  exact (((among_attr "name" _).cons.cons.append (among_optionalAttr _ _)).append
    (among_triggerAttrs _)).append (among_flag _ _)

theorem blocks_fieldTree : Blocks formShapes (fieldTree node input translator) := by
  refine blocks_of_shape ["class"] (by simp [formShapes]) (among_attr _ _) (.inl rfl) ?_
  have hlabel : Blocks formShapes [element "label"
      [attr "for" ("f-" ++ node.group ++ "-" ++ input.name)]
      (Html.run (fieldLabel node input translator).toList)] :=
    blocks_of_shape ["for"] (by simp [formShapes]) (among_attr _ _) (.inl rfl) (sound_run _)
  refine (blocks_cons hlabel (blocks_cons (blocks_of_shape ["type", "id", "name", "value",
    "autocomplete", "maxlength", "pattern", "required", "disabled", "data-wa-trigger",
    "data-wa-onload"] (by simp [formShapes]) ?_ (.inr rfl) blocks_nil.toSound)
    (blocks_messagesTree _))).toSound
  exact (((((((among_attr "name" _).cons.cons.append (among_optionalAttr _ _)).append
    (among_optionalAttr _ _)).append (among_optionalAttr _ _)).append
    (among_optionalAttr _ _)).append (among_flag _ _)).append (among_flag _ _)).append
    (among_triggerAttrs _)

theorem blocks_inputTree : Blocks formShapes (inputTree node input urls translator) := by
  rw [inputTree]
  split_ifs
  · exact blocks_hiddenTree
  · exact blocks_buttonTree _
  · exact blocks_fieldTree

theorem blocks_textTree (text : TextAttributes) :
    Blocks formShapes [textTree text translator] :=
  blocks_of_shape ["class", "id"] (by simp [formShapes]) (among_idAttr _).cons (.inl rfl)
    (sound_run _)

theorem blocks_imgTree (img : ImgAttributes) : Blocks formShapes (imgTree img) := by
  rw [imgTree]
  split
  · exact blocks_nil
  · refine blocks_of_shape ["src", "alt", "width", "height", "id"] (by simp [formShapes]) ?_
      (.inr rfl) blocks_nil.toSound
    exact (((among_attr "alt" _).cons.append (among_optionalAttr _ _)).append
      (among_optionalAttr _ _)).append (among_idAttr _)

theorem blocks_anchorTree (anchor : AnchorAttributes) :
    Blocks formShapes [anchorTree anchor urls translator] := by
  rw [anchorTree]
  split
  · exact blocks_of_shape ["href", "id"] (by simp [formShapes]) (among_idAttr _).cons (.inl rfl)
      (sound_run _)
  · exact blocks_of_shape ["id"] (by simp [formShapes]) (among_idAttr _) (.inl rfl) (sound_run _)

/-- **A node is written with the shapes of a form.** -/
theorem blocks_nodeTree : Blocks formShapes (nodeTree node urls translator) := by
  rw [nodeTree]
  cases node.kind with
  | input input => exact blocks_inputTree
  | text text => exact blocks_cons (blocks_textTree text) (blocks_messagesTree _)
  | img img => exact (blocks_imgTree img).append (blocks_messagesTree _)
  | a anchor => exact blocks_cons (blocks_anchorTree anchor) (blocks_messagesTree _)
  | script script => exact blocks_nil
  | div div =>
    refine blocks_cons (blocks_of_shape ["id"] (by simp [formShapes]) (among_idAttr _) (.inl rfl)
      blocks_nil.toSound) (blocks_messagesTree _)
  | unknown => exact blocks_messagesTree _

/-! ### Scripts -/

/-- A script of the flow, on this host or on Kratos', with the page's nonce and no other. -/
def IsScriptOf (rules : UrlRules) (nodes : List Node) (urls : RenderRules) (nonce : String)
    (tag : Html.Tag) : Prop :=
  ∃ node ∈ nodes, ∃ script src, node.kind = .script script ∧
    urls.toLocal rules script.src = some src ∧ attr "src" src ∈ tag.attributes ∧
    (tag.attributes.filter fun a => a.name = "nonce".toList) = [attr "nonce" nonce]

variable {rules : UrlRules} {nonce : String}

/-- The attributes before the nonce. -/
theorem among_scriptAttrs (script : ScriptAttributes) (src : String) :
    Among (attr "src" src :: Html.flag "async".toList script.isAsync ++
      optionalAttr "crossorigin" script.crossorigin ++ optionalAttr "integrity" script.integrity ++
      optionalAttr "referrerpolicy" script.referrerpolicy)
      ["src", "async", "crossorigin", "integrity", "referrerpolicy"] :=
  (((among_flag _ _).cons.append (among_optionalAttr _ _)).append (among_optionalAttr _ _)).append
    (among_optionalAttr _ _)

theorem blocks_scriptTree (script : ScriptAttributes) (src : String) :
    Blocks [scriptShape] [scriptTree script src nonce] := by
  refine blocks_element (fun shape hshape => ?_) (List.mem_singleton_self _)
    (((among_scriptAttrs script src).append (among_attr _ _)).append (among_idAttr _)) (.inl rfl)
    blocks_nil.toSound
  rw [List.mem_singleton.mp hshape]
  exact readable_shapes _ List.mem_cons_self

theorem elements_scriptTree (script : ScriptAttributes) (src nonce : String) :
    ∃ tag, Html.elements [scriptTree script src nonce] = [(tag, [])] ∧
      attr "src" src ∈ tag.attributes ∧
      (tag.attributes.filter fun a => a.name = "nonce".toList) = [attr "nonce" nonce] := by
  refine ⟨_, rfl, by simp, ?_⟩
  dsimp only
  rw [List.filter_append, List.filter_append,
    (among_scriptAttrs script src).filter_eq_nil (by decide),
    (among_idAttr script.id).filter_eq_nil (by decide)]
  rfl

theorem blocks_scriptsTree : Blocks [scriptShape] (scriptsTree rules node urls nonce) := by
  rw [scriptsTree]
  split
  · split
    · exact blocks_scriptTree _ _
    · exact blocks_nil
  · exact blocks_nil

/-- **A script is one of the flow's.** -/
theorem isScriptOf_of_mem {nodes : List Node} {e : Html.Tag × List Html.Node}
    (he : e ∈ Html.elements (nodes.flatMap fun node => scriptsTree rules node urls nonce)) :
    e.2 = [] ∧ IsScriptOf rules nodes urls nonce e.1 := by
  induction nodes with
  | nil => cases he
  | cons node nodes ih =>
    rw [List.flatMap_cons, Html.elements_append, List.mem_append] at he
    obtain he | he := he
    · rw [scriptsTree] at he
      split at he
      · next script hkind =>
        split at he
        · next src hsrc =>
          obtain ⟨tag, helements, hattr, hnonce⟩ := elements_scriptTree script src nonce
          rw [helements, List.mem_singleton] at he
          subst he
          exact ⟨rfl, node, List.mem_cons_self, script, src, hkind, hsrc, hattr, hnonce⟩
        · cases he
      · cases he
    · obtain ⟨hempty, node', hmem, hscript⟩ := ih he
      exact ⟨hempty, node', List.mem_cons_of_mem _ hmem, hscript⟩

/-- The shapes of a form have no script among them. -/
theorem name_ne_script {tag : Html.Tag} (h : HasShape formShapes tag) :
    tag.name ≠ "script".toList := by
  obtain ⟨shape, hmem, hname, -⟩ := h
  rw [hname]
  intro heq
  have hnone : ∀ shape ∈ formShapes, shape.1 ≠ "script" := by simp [formShapes]
  exact hnone shape hmem (String.toList_inj.mp heq)

/-! ### Forms -/

/-- `char::is_ascii_hexdigit`. -/
def isHexDigit (c : Char) : Bool :=
  c.isDigit || ('a' ≤ c && c ≤ 'f') || ('A' ≤ c && c ≤ 'F')

theorem isPlain_of_isHexDigit {c : Char} (h : isHexDigit c = true) : Html.isPlain c = true := by
  simp only [Html.isPlain, List.mem_cons, List.not_mem_nil, or_false, not_or, decide_eq_true_eq]
  refine ⟨?_, ?_, ?_, ?_, ?_⟩ <;> (rintro rfl; cases h)

theorem escape_nonce (h : ∀ c ∈ nonce.toList, isHexDigit c = true) :
    Html.escape nonce.toList = nonce.toList :=
  Html.escape_of_isPlain (List.all_eq_true.mpr fun c hc => isPlain_of_isHexDigit (h c hc))

/-- What there is to know of the document. -/
structure DocumentOf (rules : UrlRules) (nodes : List Node) (urls : RenderRules) (nonce : String)
    (tree : List Html.Node) : Prop where
  /-- Reading what was written gives the document, with its strings as they were. -/
  read : Html.parse (Html.serialize tree) = some tree
  /-- The tags and the attributes are the renderer's, each attribute at most once. -/
  shaped : ∀ e ∈ Html.elements tree, HasShape (scriptShape :: formShapes) e.1
  /-- A script has no content, and is one of the flow's. -/
  scripts : ∀ e ∈ Html.elements tree, e.1.name = "script".toList →
    e.2 = [] ∧ IsScriptOf rules nodes urls nonce e.1

theorem documentOf_scripts (nodes : List Node) : DocumentOf rules nodes urls nonce
    (nodes.flatMap fun node => scriptsTree rules node urls nonce) := by
  have hblocks : Blocks [scriptShape]
      (nodes.flatMap fun node => scriptsTree rules node urls nonce) :=
    Blocks.flatMap fun _ _ => blocks_scriptsTree
  refine ⟨Html.parse_serialize hblocks.wellFormed, fun e he => ?_, fun e he _ => ?_⟩
  · exact (hblocks.shaped e he).mono (by simp)
  · exact isScriptOf_of_mem he

theorem documentOf_form (nodes : List Node) (action method : String) :
    DocumentOf rules nodes urls nonce
      (element "form" [attr "class" "flow-form", attr "method" method, attr "action" action]
        (nodes.flatMap fun node => nodeTree node urls translator) ::
        nodes.flatMap fun node => scriptsTree rules node urls nonce) := by
  have hform : Blocks formShapes [element "form" [attr "class" "flow-form", attr "method" method,
      attr "action" action] (nodes.flatMap fun node => nodeTree node urls translator)] :=
    blocks_of_shape ["class", "method", "action"] (by simp [formShapes])
      (among_attr _ _).cons.cons (.inl rfl) (Blocks.flatMap fun _ _ => blocks_nodeTree).toSound
  have hafter : Blocks [scriptShape]
      (nodes.flatMap fun node => scriptsTree rules node urls nonce) :=
    Blocks.flatMap fun _ _ => blocks_scriptsTree
  refine ⟨Html.parse_serialize (Html.wellFormed_append hform.wellFormed hform.noText
    hafter.wellFormed), fun e he => ?_, fun e he hname => ?_⟩
  · rw [← List.singleton_append, Html.elements_append, List.mem_append] at he
    obtain he | he := he
    · exact (hform.shaped e he).mono (List.subset_cons_self _ _)
    · exact (hafter.shaped e he).mono (by simp)
  · rw [← List.singleton_append, Html.elements_append, List.mem_append] at he
    obtain he | he := he
    · exact absurd hname (name_ne_script (hform.shaped e he))
    · exact isScriptOf_of_mem he

theorem documentOf_of_formTree {flow : Flow} {groups : Option (List String)} {missingOnly : Bool}
    {tree : List Html.Node}
    (h : formTree rules flow groups missingOnly urls translator nonce = .ok tree) :
    DocumentOf rules (flow.ui.nodes.filter (chosen groups missingOnly)) urls nonce tree := by
  simp only [formTree] at h
  split at h
  · split at h
    · cases h
    · cases h
      exact documentOf_form _ _ _
  · cases h
    exact documentOf_scripts _

/-- **A rendered form is the written form of its document, and is read as it.** -/
theorem form_document (rules : UrlRules) (flow : Flow) (groups : Option (List String))
    (missingOnly : Bool) (urls : RenderRules) (translator : Translator) {nonce : String}
    (hnonce : ∀ c ∈ nonce.toList, isHexDigit c = true) :
    form rules flow groups missingOnly urls translator nonce =
      (formTree rules flow groups missingOnly urls translator nonce).map
        (fun tree => String.ofList (Html.serialize tree)) ∧
    ∀ tree, formTree rules flow groups missingOnly urls translator nonce = .ok tree →
      DocumentOf rules (flow.ui.nodes.filter (chosen groups missingOnly)) urls nonce tree := by
  exact ⟨form_eq rules flow groups missingOnly urls translator (escape_nonce hnonce),
    fun tree => documentOf_of_formTree⟩

/-! ### A form with one field and a script -/

def sampleUrlRules : UrlRules := ⟨fun _ host => some host, fun _ _ => none⟩

def sampleUrls : RenderRules where
  own := ⟨"https".toList, [], [], some "login.example".toList, none, .segments [[]], none, none⟩
  kratosOrigin := "http://kratos:4433"
  providerLogos := ∅

def sampleField : InputAttributes :=
  ⟨"email", "email", some (.str "\"><script>"), true, false, none, none, none, none, none⟩

def sampleScript : ScriptAttributes := ⟨"/webauthn.js", true, none, none, none, ""⟩

def sampleFlow : Flow :=
  ⟨⟨"/self-service/login", "POST", [⟨"profile", .input sampleField, [], ⟨none⟩⟩,
    ⟨"webauthn", .script sampleScript, [], ⟨none⟩⟩], []⟩⟩

def sampleTranslator : Translator := ⟨UiText.text, UiText.text, fun _ label => label.text⟩

/-- What a browser makes of it. -/
def sampleTree : List Html.Node :=
  [element "form" [attr "class" "flow-form", attr "method" "post",
      attr "action" "/self-service/login"]
    [element "div" [attr "class" "field"]
      [element "label" [attr "for" "f-profile-email"] [],
        element "input" [attr "type" "email", attr "id" "f-profile-email", attr "name" "email",
          attr "value" "\"><script>", ⟨"required".toList, none⟩] []]],
    element "script" [attr "src" "/webauthn.js", ⟨"async".toList, none⟩, attr "nonce" "0a"] []]

theorem formTree_sampleFlow : formTree sampleUrlRules sampleFlow none false sampleUrls
    sampleTranslator "0a" = .ok sampleTree := by
  rfl

/-- The group of a field is a part of two values, and is not a value by itself. -/
theorem group_is_part : ∃ html tree,
    form sampleUrlRules sampleFlow none false sampleUrls sampleTranslator "0a" = .ok html ∧
      Html.parse html.toList = some tree ∧ "profile".toList ∉ Html.leaves tree ∧
      (Html.leaves tree).count "f-profile-email".toList = 2 := by
  have hnonce : Html.escape "0a".toList = "0a".toList := rfl
  have hform := form_eq sampleUrlRules sampleFlow none false sampleUrls sampleTranslator
    hnonce
  rw [formTree_sampleFlow] at hform
  refine ⟨_, sampleTree, hform, ?_, ?_, ?_⟩
  · rw [String.toList_ofList]
    exact (documentOf_of_formTree formTree_sampleFlow).read
  · decide +kernel
  · decide +kernel

theorem form_document_sample :
    form sampleUrlRules sampleFlow none false sampleUrls sampleTranslator "0a" =
        .ok (String.ofList (Html.serialize sampleTree)) ∧
      DocumentOf sampleUrlRules (sampleFlow.ui.nodes.filter (chosen none false)) sampleUrls "0a"
        sampleTree := by
  have hnonce : ∀ c ∈ "0a".toList, isHexDigit c = true := List.all_eq_true.mp rfl
  obtain ⟨hform, hdocument⟩ := form_document sampleUrlRules sampleFlow none false sampleUrls
    sampleTranslator hnonce
  rw [formTree_sampleFlow] at hform
  exact ⟨hform, hdocument sampleTree formTree_sampleFlow⟩

end Login

end WeaveAuth
