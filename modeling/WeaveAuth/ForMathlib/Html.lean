import Mathlib.Data.List.Basic
import Mathlib.Data.Nat.Notation

/-!
# HTML, written and read

A document is a list of nodes: runs of text, and elements with attributes. Writing it escapes the
five characters that mean something in it. Reading it is done in two stages, as the standard has
it: a state machine cuts the text into tokens, one character at a time, and a stack of open
elements builds the nodes.

The tokenizer is the standard's for what is written here: names in lower case, attribute values in
double quotes, five character references. Elements whose content is not read in this way, such as
`script`, have to be empty to be written faithfully.

## Main results

* `scan_serialize`: the tokens of what was written
* `parse_serialize`: what was written is read back

## Scope

The text of an element is read as text and character references only. The states for comments, for
the contents of `script`, `style`, `textarea` and `title`, and for attribute values without quotes
are left out: nothing that `serialize` writes leads there but such an element that is not empty, and
to write none is up to the caller. A document here is a fragment, inside a body that is open
already: of the standard's tree construction only the stack of open elements is there.

## Implementation notes

The tokenizer takes one character at a time and nothing but its state is kept, so scanning what was
appended is scanning one after the other (`scan_append`), and there is a lemma for each piece that
`serialize` writes: from which state it leads to which, with which tokens. The tree builder is run
with any open elements below it, which is what the induction over nested nodes needs.
-/

namespace WeaveAuth

namespace Html

/-! ### Nodes -/

structure Attribute where
  name : List Char
  /-- Some attributes have none. -/
  value : Option (List Char)
  deriving DecidableEq

/-- What stands between the angle brackets of a start tag. -/
structure Tag where
  name : List Char
  attributes : List Attribute
  deriving DecidableEq

inductive Node where
  | text (content : List Char)
  | element (tag : Tag) (children : List Node)

namespace Node

def isText : Node → Bool
  | text _ => true
  | element _ _ => false

end Node

/-- The elements without content and end tag. -/
def voidElements : List (List Char) :=
  ["area", "base", "br", "col", "embed", "hr", "img", "input", "link", "meta", "source", "track",
    "wbr"].map String.toList

def isVoid (name : List Char) : Bool := voidElements.contains name

/-! ### Writing -/

def escapeChar : Char → List Char
  | '&' => "&amp;".toList
  | '<' => "&lt;".toList
  | '>' => "&gt;".toList
  | '"' => "&quot;".toList
  | '\'' => "&#39;".toList
  | c => [c]

def escape (s : List Char) : List Char := s.flatMap escapeChar

def Attribute.serialize (a : Attribute) : List Char :=
  ' ' :: a.name ++
    match a.value with
    | none => []
    | some value => '=' :: '"' :: escape value ++ ['"']

def Tag.serialize (tag : Tag) : List Char :=
  '<' :: tag.name ++ tag.attributes.flatMap Attribute.serialize ++ ['>']

mutual

def Node.serialize : Node → List Char
  | .text content => escape content
  | .element tag children =>
    tag.serialize ++
      if isVoid tag.name then [] else serialize children ++ ('<' :: '/' :: tag.name ++ ['>'])

def serialize : List Node → List Char
  | [] => []
  | node :: nodes => node.serialize ++ serialize nodes

end

/-! ### Tokens -/

inductive Token where
  | char (c : Char)
  | startTag (tag : Tag)
  | endTag (name : List Char)
  deriving DecidableEq

/-- The character that a reference stands for. -/
def reference (name : List Char) : Option Char :=
  if name = "amp".toList then some '&'
  else if name = "lt".toList then some '<'
  else if name = "gt".toList then some '>'
  else if name = "quot".toList then some '"'
  else if name = "#39".toList then some '\''
  else none

def isNameChar (c : Char) : Bool := c.isLower || c.isDigit || c = '-'

/-- A state of the tokenizer. -/
inductive State where
  | data
  | dataReference (name : List Char)
  | tagOpen
  | startTagName (name : List Char)
  | endTagName (name : List Char)
  | beforeAttribute (tag : Tag)
  | attributeName (tag : Tag) (name : List Char)
  | beforeValue (tag : Tag) (name : List Char)
  | value (tag : Tag) (name content : List Char)
  | valueReference (tag : Tag) (name content : List Char) (reference : List Char)
  | afterValue (tag : Tag)
  deriving DecidableEq

/-- The tag with one more attribute. -/
def Tag.add (tag : Tag) (a : Attribute) : Tag := ⟨tag.name, tag.attributes ++ [a]⟩

/-- One character: the next state, and the tokens that are complete. -/
def next : State → Char → Option (State × List Token)
  | .data, c =>
    if c = '<' then some (.tagOpen, [])
    else if c = '&' then some (.dataReference [], [])
    else some (.data, [.char c])
  | .dataReference name, c =>
    if c = ';' then (reference name).map fun c => (.data, [.char c])
    else some (.dataReference (name ++ [c]), [])
  | .tagOpen, c =>
    if c = '/' then some (.endTagName [], [])
    else if isNameChar c then some (.startTagName [c], [])
    else none
  | .startTagName name, c =>
    if c = ' ' then some (.beforeAttribute ⟨name, []⟩, [])
    else if c = '>' then some (.data, [.startTag ⟨name, []⟩])
    else if isNameChar c then some (.startTagName (name ++ [c]), [])
    else none
  | .endTagName name, c =>
    if c = '>' then some (.data, [.endTag name])
    else if isNameChar c then some (.endTagName (name ++ [c]), [])
    else none
  | .beforeAttribute tag, c => if isNameChar c then some (.attributeName tag [c], []) else none
  | .attributeName tag name, c =>
    if c = '=' then some (.beforeValue tag name, [])
    else if c = ' ' then some (.beforeAttribute (tag.add ⟨name, none⟩), [])
    else if c = '>' then some (.data, [.startTag (tag.add ⟨name, none⟩)])
    else if isNameChar c then some (.attributeName tag (name ++ [c]), [])
    else none
  | .beforeValue tag name, c => if c = '"' then some (.value tag name [], []) else none
  | .value tag name content, c =>
    if c = '"' then some (.afterValue (tag.add ⟨name, some content⟩), [])
    else if c = '&' then some (.valueReference tag name content [], [])
    else some (.value tag name (content ++ [c]), [])
  | .valueReference tag name content reference', c =>
    if c = ';' then (reference reference').map fun c => (.value tag name (content ++ [c]), [])
    else some (.valueReference tag name content (reference' ++ [c]), [])
  | .afterValue tag, c =>
    if c = ' ' then some (.beforeAttribute tag, [])
    else if c = '>' then some (.data, [.startTag tag])
    else none

/-- The state after a text, and its tokens. -/
def scan : State → List Char → Option (State × List Token)
  | s, [] => some (s, [])
  | s, c :: text => do
    let (s', tokens) ← next s c
    let (s'', more) ← scan s' text
    return (s'', tokens ++ more)

/-! ### The tree -/

/-- The open elements, and the nodes of the innermost one, the last one first. -/
structure Builder where
  elements : List (Tag × List Node)
  nodes : List Node

namespace Builder

/-- A run of text goes on. -/
def addChar (nodes : List Node) (c : Char) : List Node :=
  match nodes with
  | .text content :: nodes => .text (content ++ [c]) :: nodes
  | nodes => .text [c] :: nodes

def token : Builder → Token → Option Builder
  | ⟨elements, nodes⟩, .char c => some ⟨elements, addChar nodes c⟩
  | ⟨elements, nodes⟩, .startTag tag =>
    if isVoid tag.name then some ⟨elements, .element tag [] :: nodes⟩
    else some ⟨(tag, nodes) :: elements, []⟩
  | ⟨(tag, before) :: elements, nodes⟩, .endTag name =>
    if tag.name = name then some ⟨elements, .element tag nodes.reverse :: before⟩ else none
  | ⟨[], _⟩, .endTag _ => none

def tokens : Builder → List Token → Option Builder
  | b, [] => some b
  | b, t :: ts => (b.token t).bind fun b => b.tokens ts

end Builder

/-- The nodes that are written in a text. -/
def parse (text : List Char) : Option (List Node) :=
  match scan .data text with
  | some (.data, tokens) =>
    match Builder.tokens ⟨[], []⟩ tokens with
    | some ⟨[], nodes⟩ => some nodes.reverse
    | _ => none
  | _ => none

/-! ### Well-formed documents -/

def isName (name : List Char) : Bool := name ≠ [] && name.all isNameChar

mutual

/-- The names can be read, a void element is empty, and no run of text is. -/
def Node.WellFormed : Node → Prop
  | .text content => content ≠ []
  | .element tag children =>
    isName tag.name = true ∧ (∀ a ∈ tag.attributes, isName a.name = true) ∧
      (isVoid tag.name = true → children = []) ∧ WellFormed children

/-- And no two runs of text are next to each other. -/
def WellFormed : List Node → Prop
  | [] => True
  | node :: nodes =>
    node.WellFormed ∧ (node.isText = true → nodes.head?.any Node.isText = false) ∧
      WellFormed nodes

end

mutual

def Node.tokens : Node → List Token
  | .text content => content.map .char
  | .element tag children =>
    .startTag tag :: if isVoid tag.name then [] else tokens children ++ [.endTag tag.name]

def tokens : List Node → List Token
  | [] => []
  | node :: nodes => node.tokens ++ tokens nodes

end

/-! ### The tokens of what was written -/

variable {s s' s'' : State} {text text' name content : List Char} {ts us : List Token} {tag : Tag}

theorem scan_append (h : scan s text = some (s', ts)) (h' : scan s' text' = some (s'', us)) :
    scan s (text ++ text') = some (s'', ts ++ us) := by
  induction text generalizing s ts with
  | nil =>
    obtain ⟨rfl, rfl⟩ : s = s' ∧ [] = ts := by simpa [scan] using h
    exact h'
  | cons c text ih =>
    simp only [scan, Option.bind_eq_bind, Option.bind_eq_some_iff, Option.pure_def,
      Option.some.injEq, Prod.mk.injEq] at h
    obtain ⟨⟨s₁, first⟩, hnext, ⟨s₂, rest⟩, hrest, rfl, rfl⟩ := h
    simp [scan, hnext, ih hrest, List.append_assoc]

/-- A character that completes no token. -/
theorem scan_cons {c : Char} (h : next s c = some (s', [])) (h' : scan s' text = some (s'', us)) :
    scan s (c :: text) = some (s'', us) := by
  simp [scan, h, h']

theorem scan_singleton {c : Char} (h : next s c = some (s', ts)) : scan s [c] = some (s', ts) := by
  simp [scan, h]

/-- A state that collects a name collects all of it. -/
theorem scan_name {f : List Char → State}
    (hf : ∀ name c, isNameChar c = true → next (f name) c = some (f (name ++ [c]), []))
    (h : name.all isNameChar = true) (before : List Char) :
    scan (f before) name = some (f (before ++ name), []) := by
  induction name generalizing before with
  | nil => simp [scan]
  | cons c name ih =>
    rw [List.all_cons, Bool.and_eq_true] at h
    have hrest := ih h.2 (before ++ [c])
    rw [List.append_assoc, List.singleton_append] at hrest
    exact scan_cons (hf before c h.1) hrest

/-- So does one that collects a reference, up to its end. -/
theorem scan_reference {f : List Char → State} {g : Char → State × List Token}
    (hf : ∀ name c, next (f name) c =
      if c = ';' then (reference name).map g else some (f (name ++ [c]), []))
    (h : ';' ∉ name) {before : List Char} {c : Char} (href : reference (before ++ name) = some c) :
    scan (f before) (name ++ [';']) = some (g c) := by
  induction name generalizing before with
  | nil =>
    rw [List.append_nil] at href
    have hend : next (f before) ';' = some ((g c).1, (g c).2) := by
      rw [hf, if_pos rfl, href, Option.map_some]
    exact scan_singleton hend
  | cons d name ih =>
    rw [List.mem_cons, not_or] at h
    have hmore : next (f before) d = some (f (before ++ [d]), []) := by
      rw [hf, if_neg (Ne.symm h.1)]
    refine scan_cons hmore (ih h.2 ?_)
    rwa [List.append_assoc]

/-- A character is written as a reference, or as itself if it means nothing else. -/
theorem escapeChar_cases (c : Char) :
    (∃ name, ';' ∉ name ∧ reference name = some c ∧ escapeChar c = '&' :: name ++ [';']) ∨
      (c ≠ '&' ∧ c ≠ '<' ∧ c ≠ '"' ∧ escapeChar c = [c]) := by
  unfold escapeChar
  split
  · exact .inl ⟨"amp".toList, by decide, by decide, rfl⟩
  · exact .inl ⟨"lt".toList, by decide, by decide, rfl⟩
  · exact .inl ⟨"gt".toList, by decide, by decide, rfl⟩
  · exact .inl ⟨"quot".toList, by decide, by decide, rfl⟩
  · exact .inl ⟨"#39".toList, by decide, by decide, rfl⟩
  · next hamp hlt _ hquot _ => exact .inr ⟨hamp, hlt, hquot, rfl⟩

theorem scan_escapeChar (c : Char) : scan .data (escapeChar c) = some (.data, [.char c]) := by
  obtain ⟨name, hname, href, heq⟩ | ⟨hamp, hlt, -, heq⟩ := escapeChar_cases c
  · have hnext : next .data '&' = some (.dataReference [], []) := rfl
    rw [heq]
    exact scan_cons hnext
      (scan_reference (g := fun c => (.data, [.char c])) (fun _ _ => rfl) hname href)
  · rw [heq]
    exact scan_singleton (by simp [next, hamp, hlt])

theorem scan_escape (content : List Char) :
    scan .data (escape content) = some (.data, content.map .char) := by
  induction content with
  | nil => rfl
  | cons c content ih =>
    rw [escape, List.flatMap_cons, List.map_cons]
    exact scan_append (scan_escapeChar c) ih

theorem scan_escapeChar_value (c : Char) : scan (.value tag name content) (escapeChar c) =
    some (.value tag name (content ++ [c]), []) := by
  obtain ⟨reference', hname, href, heq⟩ | ⟨hamp, -, hquot, heq⟩ := escapeChar_cases c
  · have hnext : next (.value tag name content) '&' =
        some (.valueReference tag name content [], []) := rfl
    rw [heq]
    exact scan_cons hnext
      (scan_reference (g := fun c => (.value tag name (content ++ [c]), [])) (fun _ _ => rfl) hname
        href)
  · rw [heq]
    exact scan_singleton (by simp [next, hamp, hquot])

theorem scan_escape_value (content value : List Char) :
    scan (.value tag name content) (escape value) =
      some (.value tag name (content ++ value), []) := by
  induction value generalizing content with
  | nil => simp [escape, scan]
  | cons c value ih =>
    have hrest := ih (content ++ [c])
    rw [List.append_assoc, List.singleton_append] at hrest
    rw [escape, List.flatMap_cons]
    exact scan_append (scan_escapeChar_value c) hrest

/-- The tag may end here, or have another attribute. -/
structure Ready (s : State) (tag : Tag) : Prop where
  more : next s ' ' = some (.beforeAttribute tag, [])
  last : next s '>' = some (.data, [.startTag tag])

/-- The characters of a name are no delimiters. -/
theorem ne_of_isNameChar {c d : Char} (h : isNameChar c = true) (hd : isNameChar d = false) :
    c ≠ d := by
  rintro rfl
  rw [h] at hd
  cases hd

theorem next_attributeName {c : Char} (h : isNameChar c = true) :
    next (.attributeName tag name) c = some (.attributeName tag (name ++ [c]), []) := by
  simp [next, h, ne_of_isNameChar h (d := '=') rfl, ne_of_isNameChar h (d := ' ') rfl,
    ne_of_isNameChar h (d := '>') rfl]

theorem next_startTagName {c : Char} (h : isNameChar c = true) :
    next (.startTagName name) c = some (.startTagName (name ++ [c]), []) := by
  simp [next, h, ne_of_isNameChar h (d := ' ') rfl, ne_of_isNameChar h (d := '>') rfl]

theorem next_endTagName {c : Char} (h : isNameChar c = true) :
    next (.endTagName name) c = some (.endTagName (name ++ [c]), []) := by
  simp [next, h, ne_of_isNameChar h (d := '>') rfl]

theorem exists_of_isName (h : isName name = true) : ∃ c rest, name = c :: rest ∧
    isNameChar c = true ∧ rest.all isNameChar = true := by
  cases name with
  | nil => cases h
  | cons c rest =>
    rw [isName, Bool.and_eq_true, List.all_cons, Bool.and_eq_true] at h
    exact ⟨c, rest, rfl, h.2⟩

theorem scan_attribute {a : Attribute} (hs : Ready s tag) (h : isName a.name = true) :
    ∃ s', scan s a.serialize = some (s', []) ∧ Ready s' (tag.add a) := by
  obtain ⟨name, value⟩ := a
  obtain ⟨c, rest, rfl, hc, hrest⟩ := exists_of_isName h
  have hfirst : next (.beforeAttribute tag) c = some (.attributeName tag [c], []) := by
    simp [next, hc]
  have hname : scan s (' ' :: c :: rest) = some (.attributeName tag (c :: rest), []) :=
    scan_cons hs.more (scan_cons hfirst (scan_name (fun _ _ => next_attributeName) hrest [c]))
  cases value with
  | none =>
    refine ⟨.attributeName tag (c :: rest), ?_, rfl, rfl⟩
    rwa [Attribute.serialize, List.append_nil]
  | some value =>
    refine ⟨.afterValue (tag.add ⟨c :: rest, some value⟩), ?_, rfl, rfl⟩
    have hequals : next (.attributeName tag (c :: rest)) '=' =
      some (.beforeValue tag (c :: rest), []) := rfl
    have hquote : next (.beforeValue tag (c :: rest)) '"' =
      some (.value tag (c :: rest) [], []) := rfl
    exact scan_append hname (scan_cons hequals (scan_cons hquote
      (scan_append (scan_escape_value [] value) (scan_singleton rfl))))

theorem scan_attributes {attributes : List Attribute} (hs : Ready s tag)
    (h : ∀ a ∈ attributes, isName a.name = true) :
    ∃ s', scan s (attributes.flatMap Attribute.serialize) = some (s', []) ∧
      Ready s' ⟨tag.name, tag.attributes ++ attributes⟩ := by
  induction attributes generalizing s tag with
  | nil =>
    refine ⟨s, rfl, ?_⟩
    rwa [List.append_nil]
  | cons a attributes ih =>
    rw [List.forall_mem_cons] at h
    obtain ⟨s₁, hfirst, hs₁⟩ := scan_attribute hs h.1
    obtain ⟨s₂, hrest, hs₂⟩ := ih hs₁ h.2
    refine ⟨s₂, scan_append hfirst hrest, ?_⟩
    rwa [Tag.add, List.append_assoc] at hs₂

theorem scan_startTag (hname : isName tag.name = true)
    (hattributes : ∀ a ∈ tag.attributes, isName a.name = true) :
    scan .data tag.serialize = some (.data, [.startTag tag]) := by
  obtain ⟨name, attributes⟩ := tag
  obtain ⟨c, rest, rfl, hc, hrest⟩ := exists_of_isName hname
  have hangle : next .data '<' = some (.tagOpen, []) := rfl
  have hfirst : next .tagOpen c = some (.startTagName [c], []) := by
    simp [next, hc, ne_of_isNameChar hc (d := '/') rfl]
  have hopen : scan .data ('<' :: c :: rest) = some (.startTagName (c :: rest), []) :=
    scan_cons hangle (scan_cons hfirst (scan_name (fun _ _ => next_startTagName) hrest [c]))
  have hready : Ready (.startTagName (c :: rest)) ⟨c :: rest, []⟩ := ⟨rfl, rfl⟩
  obtain ⟨s', hscan, hs'⟩ := scan_attributes hready hattributes
  exact scan_append (scan_append hopen hscan) (scan_singleton hs'.last)

theorem scan_endTag (h : isName name = true) :
    scan .data ('<' :: '/' :: name ++ ['>']) = some (.data, [.endTag name]) := by
  obtain ⟨c, rest, rfl, hc, hrest⟩ := exists_of_isName h
  have hall : (c :: rest).all isNameChar = true := by rw [List.all_cons, hc, hrest]; rfl
  have hangle : next .data '<' = some (.tagOpen, []) := rfl
  have hslash : next .tagOpen '/' = some (.endTagName [], []) := rfl
  have hopen : scan .data ('<' :: '/' :: c :: rest) = some (.endTagName (c :: rest), []) :=
    scan_cons hangle (scan_cons hslash (scan_name (fun _ _ => next_endTagName) hall []))
  exact scan_append hopen (scan_singleton rfl)

mutual

theorem Node.scan_serialize : ∀ node : Node, node.WellFormed →
    scan .data node.serialize = some (.data, node.tokens)
  | .text content, _ => scan_escape content
  | .element tag children, ⟨hname, hattributes, _, hchildren⟩ => by
    have hopen := scan_startTag hname hattributes
    rw [Node.serialize, Node.tokens]
    split
    · rw [List.append_nil]
      exact hopen
    · exact scan_append hopen
        (scan_append (scan_serialize children hchildren) (scan_endTag hname))

/-- **What is written is read as its tokens.** -/
theorem scan_serialize : ∀ nodes : List Node, WellFormed nodes →
    scan .data (serialize nodes) = some (.data, tokens nodes)
  | [], _ => rfl
  | node :: nodes, ⟨hnode, _, hnodes⟩ =>
    scan_append (Node.scan_serialize node hnode) (scan_serialize nodes hnodes)

end

/-! ### The tree of the tokens -/

namespace Builder

variable {elements elements' : List (Tag × List Node)} {before nodes : List Node}

theorem tokens_append {b b' : Builder} (h : b.tokens ts = some b') :
    b.tokens (ts ++ us) = b'.tokens us := by
  induction ts generalizing b with
  | nil => rw [Option.some.inj h, List.nil_append]
  | cons t ts ih =>
    obtain ⟨b₁, hfirst, hrest⟩ := Option.bind_eq_some_iff.mp h
    rw [List.cons_append, tokens, hfirst]
    exact ih hrest

theorem tokens_goes_on (content more : List Char) : tokens ⟨elements, .text content :: before⟩
    (more.map .char) = some ⟨elements, .text (content ++ more) :: before⟩ := by
  induction more generalizing content with
  | nil => rw [List.append_nil]; rfl
  | cons c more ih =>
    have hrest := ih (content ++ [c])
    rwa [List.append_assoc, List.singleton_append] at hrest

/-- A run of text is one node, if it comes after none. -/
theorem tokens_text (h : content ≠ []) (hbefore : before.head?.any Node.isText = false) :
    tokens ⟨elements, before⟩ (content.map .char) = some ⟨elements, .text content :: before⟩ := by
  obtain ⟨c, more, rfl⟩ := List.exists_cons_of_ne_nil h
  have hfirst : addChar before c = .text [c] :: before := by
    unfold addChar
    split
    · cases hbefore
    · rfl
  rw [List.map_cons, tokens, token, Option.bind_some, hfirst]
  exact tokens_goes_on [c] more

end Builder

mutual

theorem Node.build : ∀ node : Node, node.WellFormed → ∀ (elements : List (Tag × List Node))
    (before : List Node), (node.isText = true → before.head?.any Node.isText = false) →
    Builder.tokens ⟨elements, before⟩ node.tokens = some ⟨elements, node :: before⟩
  | .text _, hcontent, _, _, hbefore => Builder.tokens_text hcontent (hbefore rfl)
  | .element tag children, ⟨_, _, hvoid, hchildren⟩, elements, before, _ => by
    rw [Node.tokens, Builder.tokens, Builder.token]
    split
    · next h =>
      rw [hvoid h]
      rfl
    · have hinside := build children hchildren ((tag, before) :: elements) [] nofun
      rw [Option.bind_some, Builder.tokens_append hinside, List.append_nil, Builder.tokens,
        Builder.token, if_pos rfl, List.reverse_reverse]
      rfl

/-- **The tokens of nodes build these nodes.** -/
theorem build : ∀ nodes : List Node, WellFormed nodes → ∀ (elements : List (Tag × List Node))
    (before : List Node),
    (before.head?.any Node.isText = true → nodes.head?.any Node.isText = false) →
    Builder.tokens ⟨elements, before⟩ (tokens nodes) = some ⟨elements, nodes.reverse ++ before⟩
  | [], _, _, _, _ => rfl
  | node :: nodes, ⟨hnode, hnext, hnodes⟩, elements, before, hbefore => by
    have hfirst := Node.build node hnode elements before fun htext => by
      by_contra h
      have hnot := hbefore (Bool.of_not_eq_false h)
      rw [List.head?_cons, Option.any_some, htext] at hnot
      cases hnot
    rw [tokens, Builder.tokens_append hfirst, build nodes hnodes elements (node :: before) hnext,
      List.reverse_cons, List.append_assoc, List.singleton_append]

end

/-- **What is written is read back.** -/
theorem parse_serialize {nodes : List Node} (h : WellFormed nodes) :
    parse (serialize nodes) = some nodes := by
  rw [parse, scan_serialize nodes h]
  simp [build nodes h [] [] nofun]

/-! ### Putting documents together -/

theorem serialize_append (nodes nodes' : List Node) :
    serialize (nodes ++ nodes') = serialize nodes ++ serialize nodes' := by
  induction nodes with
  | nil => rfl
  | cons node nodes ih => rw [List.cons_append, serialize, ih, serialize, List.append_assoc]

theorem serialize_flatMap {α : Type} (f : α → List Node) (l : List α) :
    serialize (l.flatMap f) = l.flatMap fun a => serialize (f a) := by
  induction l with
  | nil => rfl
  | cons a l ih => rw [List.flatMap_cons, serialize_append, ih, List.flatMap_cons]

mutual

/-- The elements of the document, each with its children. -/
def Node.elements : Node → List (Tag × List Node)
  | .text _ => []
  | .element tag children => (tag, children) :: elements children

def elements : List Node → List (Tag × List Node)
  | [] => []
  | node :: nodes => node.elements ++ elements nodes

end

theorem elements_append (nodes nodes' : List Node) :
    elements (nodes ++ nodes') = elements nodes ++ elements nodes' := by
  induction nodes with
  | nil => rfl
  | cons node nodes ih => rw [List.cons_append, elements, ih, elements, List.append_assoc]

mutual

/-- The attribute values and the runs of text. -/
def Node.leaves : Node → List (List Char)
  | .text content => [content]
  | .element tag children => tag.attributes.filterMap Attribute.value ++ leaves children

def leaves : List Node → List (List Char)
  | [] => []
  | node :: nodes => node.leaves ++ leaves nodes

end

/-- Elements may come before anything. -/
theorem wellFormed_append {nodes nodes' : List Node} (h : WellFormed nodes)
    (htext : ∀ node ∈ nodes, node.isText = false) (h' : WellFormed nodes') :
    WellFormed (nodes ++ nodes') := by
  induction nodes with
  | nil => exact h'
  | cons node nodes ih =>
    obtain ⟨hnode, -, hnodes⟩ := h
    rw [List.forall_mem_cons] at htext
    refine ⟨hnode, fun hnot => ?_, ih hnodes htext.2⟩
    rw [htext.1] at hnot
    cases hnot

/-- A run of text, if there is any. -/
def run (content : List Char) : List Node := if content = [] then [] else [.text content]

@[simp] theorem serialize_run (content : List Char) : serialize (run content) = escape content := by
  rw [run]
  split
  · next h => rw [h]; rfl
  · exact List.append_nil _

theorem wellFormed_run (content : List Char) : WellFormed (run content) := by
  rw [run]
  split
  · trivial
  · next h => exact ⟨h, fun _ => rfl, trivial⟩

@[simp] theorem elements_run (content : List Char) : elements (run content) = [] := by
  rw [run]
  split <;> rfl

/-- An attribute that may be left out. -/
def optional (name : List Char) (value : Option (List Char)) : List Attribute :=
  match value with
  | none => []
  | some value => [⟨name, some value⟩]

/-- One without a value. -/
def flag (name : List Char) (set : Bool) : List Attribute := if set then [⟨name, none⟩] else []

theorem optional_sublist (name : List Char) (value : Option (List Char)) :
    ((optional name value).map Attribute.name).Sublist [name] := by
  cases value with
  | none => exact List.nil_sublist _
  | some value => exact List.Sublist.refl _

theorem flag_sublist (name : List Char) (set : Bool) :
    ((flag name set).map Attribute.name).Sublist [name] := by
  cases set with
  | false => exact List.nil_sublist _
  | true => exact List.Sublist.refl _

/-! ### Texts that need no escaping -/

@[simp] theorem escape_nil : escape [] = [] := rfl

@[simp] theorem escape_append (s t : List Char) : escape (s ++ t) = escape s ++ escape t :=
  List.flatMap_append

/-- A character that is written as itself. -/
def isPlain (c : Char) : Bool := c ∉ ['&', '<', '>', '"', '\'']

theorem escapeChar_of_isPlain {c : Char} (h : isPlain c = true) : escapeChar c = [c] := by
  unfold escapeChar
  split
  all_goals first | rfl | cases h

theorem escape_cons_of_isPlain {c : Char} (h : isPlain c = true) (s : List Char) :
    escape (c :: s) = c :: escape s := by
  rw [escape, List.flatMap_cons, escapeChar_of_isPlain h]
  rfl

theorem escape_of_isPlain {s : List Char} (h : s.all isPlain = true) : escape s = s := by
  induction s with
  | nil => rfl
  | cons c s ih =>
    rw [List.all_cons, Bool.and_eq_true] at h
    rw [escape_cons_of_isPlain h.1, ih h.2]

theorem isPlain_of_isAlphanum {c : Char} (h : c.isAlphanum = true) : isPlain c = true := by
  simp only [isPlain, List.mem_cons, List.not_mem_nil, or_false, not_or, decide_eq_true_eq]
  refine ⟨?_, ?_, ?_, ?_, ?_⟩ <;> (rintro rfl; cases h)

end Html

end WeaveAuth
