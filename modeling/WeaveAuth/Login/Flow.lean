import WeaveAuth.Bff.LogoutToken

/-!
# Flows

Kratos' flow as `login/src/kratos.rs` reads it for the renderer.

## What is left out

The fields of a flow that the renderer does not read.
-/

namespace WeaveAuth

namespace Login

open Bff (Json)

/-- A text of Kratos. -/
structure UiText where
  /-- Kratos' message id. -/
  id : ℕ
  text : String
  /-- `info`, `error` or `success`. -/
  kind : String
  /-- The values Kratos filled its text with. -/
  context : List (String × Json)

structure InputAttributes where
  name : String
  kind : String
  value : Option Json
  required : Bool
  disabled : Bool
  autocomplete : Option String
  maxlength : Option ℕ
  pattern : Option String
  onclickTrigger : Option String
  onloadTrigger : Option String

structure TextAttributes where
  text : UiText
  id : String

structure ImgAttributes where
  src : String
  id : String
  width : Option ℕ
  height : Option ℕ

structure AnchorAttributes where
  href : String
  title : UiText
  id : String

structure ScriptAttributes where
  src : String
  isAsync : Bool
  crossorigin : Option String
  integrity : Option String
  referrerpolicy : Option String
  id : String

structure DivAttributes where
  id : String

inductive NodeKind where
  | input (input : InputAttributes)
  | text (text : TextAttributes)
  | img (img : ImgAttributes)
  | a (anchor : AnchorAttributes)
  | script (script : ScriptAttributes)
  | div (div : DivAttributes)
  | unknown

structure Meta where
  label : Option UiText

structure Node where
  group : String
  kind : NodeKind
  messages : List UiText
  nodeMeta : Meta

structure Ui where
  action : String
  method : String
  nodes : List Node
  messages : List UiText

/-- The parts of a Kratos flow login renders. -/
structure Flow where
  ui : Ui

end Login

end WeaveAuth
