import Mathlib.Data.List.Dedup
import WeaveAuth.Bff.LogoutToken
import WeaveAuth.Text

/-!
# The texts of a locale file

`login/src/i18n.rs`: in a text, `{name}` stands for a value and `{{` and `}}` for a brace. Two
functions read such a text. `fill` goes over its characters, and `placeholders`, which looks at a
text before there are values, cuts it at its braces.

## What they are compared with

Neither function is the measure of the other, nor of itself. `Splits` says what the parts of a text
are, `IsText` which values can stand in a text and how each is written, and `Fills` what becomes of
parts and values; none of them mentions a definition of the code.

## Implementation notes

A text is its characters. `rest.find(['{', '}'])` with the slice after it is `dropWhile`, and the
loop of `placeholders`, which drops at least one character in a turn, has a turn for each character
and one more. A context is the list of its members, of which `Map::get` finds the first; a `Map` has
each name once. A number that is no integer is the text that `serde_json` gives it.

## Main results

* `fillFrom_eq`, `placeholdersWithin_eq`: what the two make of a text, part by part
* `fillParts_iff`: what `fill` makes of parts is what they are filled with
* `placeholders_agrees`: both find the same parts, or none
-/

namespace WeaveAuth

namespace Login

open Bff (Json)

/-! ### The two functions -/

/-- The text of a scalar. -/
def scalarText : Json → Option String
  | .str text => some text
  | .int number => some (toString number)
  | .float text => some text
  | .bool flag => some (toString flag)
  | _ => none

/-- The value of a name in `context`. -/
def valueOf (context : List (String × Json)) (name : List Char) : Option (List Char) :=
  (((Json.obj context).get (String.ofList name)).bind scalarText).map String.toList

/-- The loop of `fill`: outside a name, or after these characters of one. -/
def fillFrom (context : List (String × Json)) :
    Option (List Char) → List Char → Option (List Char)
  | none, [] => some []
  | none, '{' :: '{' :: rest => (fillFrom context none rest).map ('{' :: ·)
  | none, '}' :: '}' :: rest => (fillFrom context none rest).map ('}' :: ·)
  | none, '{' :: rest => fillFrom context (some []) rest
  | none, c :: rest => (fillFrom context none rest).map (c :: ·)
  | some _, [] => none
  | some name, '}' :: rest =>
    (valueOf context name).bind fun value => (fillFrom context none rest).map (value ++ ·)
  | some name, c :: rest => fillFrom context (some (name ++ [c])) rest

/-- `template` with each `{name}` replaced by the scalar of that name; none when a value is missing
or is no scalar, or a brace is never closed. -/
def fill (template : String) (context : List (String × Json)) : Option String :=
  (fillFrom context none template.toList).map String.ofList

theorem fillFrom_congr {context context' : List (String × Json)}
    (h : ∀ name, (Json.obj context').get name = (Json.obj context).get name)
    (before : Option (List Char)) (rest : List Char) :
    fillFrom context' before rest = fillFrom context before rest := by
  fun_induction fillFrom context before rest <;> simp_all [fillFrom, valueOf]

/-- Only the values count. -/
theorem fill_congr {context context' : List (String × Json)}
    (h : ∀ name, (Json.obj context').get name = (Json.obj context).get name) (template : String) :
    fill template context' = fill template context := by
  rw [fill, fill, fillFrom_congr h]

def isBrace (c : Char) : Bool := c = '{' || c = '}'

/-- The loop of `placeholders`, which goes from brace to brace, for at most so many turns. -/
def placeholdersWithin : ℕ → List Char → Option (List (List Char))
  | 0, _ => none
  | n + 1, rest =>
    match rest.dropWhile fun c => !isBrace c with
    | [] => some []
    | '{' :: '{' :: tail => placeholdersWithin n tail
    | '}' :: '}' :: tail => placeholdersWithin n tail
    | '{' :: opened => do
      let (name, tail) ← splitOnce '}' opened
      return name :: (← placeholdersWithin n tail)
    | _ :: tail => placeholdersWithin n tail

/-- The names in `template`; none when a brace is never closed. -/
def placeholders (template : String) : Option (List String) :=
  (placeholdersWithin (template.toList.length + 1) template.toList).map (List.map String.ofList)

/-! ### The parts of a text -/

/-- A part of a text: a character, or a name for a value. -/
inductive Part where
  | literal (c : Char)
  | placeholder (name : List Char)

/-- These are the parts of the text before `stop`. -/
inductive Splits (stop : List Char) : List Char → List Part → Prop where
  | nil : Splits stop stop []
  | opened {rest : List Char} {parts : List Part} (h : Splits stop rest parts) :
      Splits stop ('{' :: '{' :: rest) (.literal '{' :: parts)
  | closed {rest : List Char} {parts : List Part} (h : Splits stop rest parts) :
      Splits stop ('}' :: '}' :: rest) (.literal '}' :: parts)
  | placeholder {name rest : List Char} {parts : List Part} (hfirst : name.head? ≠ some '{')
      (hclose : '}' ∉ name) (h : Splits stop rest parts) :
      Splits stop ('{' :: name ++ '}' :: rest) (.placeholder name :: parts)
  | lone {rest : List Char} {parts : List Part} (hnext : rest.head? ≠ some '}')
      (h : Splits stop rest parts) : Splits stop ('}' :: rest) (.literal '}' :: parts)
  | plain {c : Char} {rest : List Char} {parts : List Part} (hopen : c ≠ '{') (hclose : c ≠ '}')
      (h : Splits stop rest parts) : Splits stop (c :: rest) (.literal c :: parts)

/-- After some parts comes a brace that is none of two and is never closed. -/
def Unclosed (template : List Char) : Prop :=
  ∃ (rest : List Char) (parts : List Part), Splits ('{' :: rest) template parts ∧
    rest.head? ≠ some '{' ∧ '}' ∉ rest

/-- The names among the parts. -/
def names : List Part → List (List Char)
  | [] => []
  | .literal _ :: parts => names parts
  | .placeholder name :: parts => name :: names parts

/-- A part and what follows it. -/
def Part.write (value : List Char → Option (List Char)) :
    Part → Option (List Char) → Option (List Char)
  | .literal c, rest => rest.map (c :: ·)
  | .placeholder name, rest => (value name).bind fun text => rest.map (text ++ ·)

theorem foldr_write_none (value : List Char → Option (List Char)) (parts : List Part) :
    parts.foldr (Part.write value) none = none := by
  induction parts with
  | nil => rfl
  | cons part parts ih =>
    cases part with
    | literal c => rw [List.foldr_cons, ih, Part.write, Option.map_none]
    | placeholder name =>
      rw [List.foldr_cons, ih, Part.write]
      cases value name <;> rfl

/-! ### Filled texts -/

/-- A string, a number or a boolean, as it stands in a text. -/
inductive IsText : Json → List Char → Prop where
  | str (text : String) : IsText (.str text) text.toList
  | int (number : ℤ) : IsText (.int number) (toString number).toList
  | float (text : String) : IsText (.float text) text.toList
  | bool_true : IsText (.bool true) ['t', 'r', 'u', 'e']
  | bool_false : IsText (.bool false) ['f', 'a', 'l', 's', 'e']

/-- The name has this value. -/
def HasText (context : List (String × Json)) (name : String) (text : List Char) : Prop :=
  ∃ value, (Json.obj context).get name = some value ∧ IsText value text

/-- A name has a string, a number or a boolean for its value. -/
def HasScalar (context : List (String × Json)) (name : String) : Prop :=
  ∃ text, HasText context name text

/-- The parts, one after the other, with each name's value in its place. -/
inductive Fills (context : List (String × Json)) : List Part → List Char → Prop where
  | nil : Fills context [] []
  | literal (c : Char) {parts : List Part} {text : List Char} (h : Fills context parts text) :
      Fills context (.literal c :: parts) (c :: text)
  | placeholder {name value : List Char} {parts : List Part} {text : List Char}
      (hvalue : HasText context (String.ofList name) value) (h : Fills context parts text) :
      Fills context (.placeholder name :: parts) (value ++ text)

section Filled

variable {context : List (String × Json)} {parts : List Part}

theorem isText_iff {value : Json} {text : List Char} :
    IsText value text ↔ (scalarText value).map String.toList = some text := by
  constructor
  · intro h
    cases h <;> rfl
  · intro h
    cases value with
    | null | arr | obj => cases h
    | str => exact Option.some.inj h ▸ .str _
    | int => exact Option.some.inj h ▸ .int _
    | float => exact Option.some.inj h ▸ .float _
    | bool flag =>
      cases flag with
      | true => exact Option.some.inj h ▸ .bool_true
      | false => exact Option.some.inj h ▸ .bool_false

/-- The code finds the value of a name. -/
theorem hasText_iff {name text : List Char} :
    HasText context (String.ofList name) text ↔ valueOf context name = some text := by
  rw [HasText, valueOf]
  simp only [isText_iff]
  cases (Json.obj context).get (String.ofList name) with
  | none => simp
  | some value => simp only [Option.some.injEq, exists_eq_left', Option.bind_some]

/-- **What `fill` makes of parts is what they are filled with.** -/
theorem fillParts_iff {text : List Char} :
    parts.foldr (Part.write (valueOf context)) (some []) = some text ↔
      Fills context parts text := by
  induction parts generalizing text with
  | nil =>
    constructor
    · intro h
      obtain rfl := Option.some.inj h
      exact .nil
    · rintro ⟨⟩
      rfl
  | cons part parts ih =>
    rw [List.foldr_cons]
    cases part with
    | literal c =>
      rw [Part.write, Option.map_eq_some_iff]
      constructor
      · rintro ⟨rest, hrest, rfl⟩
        exact .literal c (ih.mp hrest)
      · intro h
        cases h with
        | literal _ h => exact ⟨_, ih.mpr h, rfl⟩
    | placeholder name =>
      rw [Part.write, Option.bind_eq_some_iff]
      constructor
      · rintro ⟨value, hvalue, h⟩
        obtain ⟨rest, hrest, rfl⟩ := Option.map_eq_some_iff.mp h
        exact .placeholder (hasText_iff.mpr hvalue) (ih.mp hrest)
      · intro h
        cases h with
        | placeholder hvalue h =>
          exact ⟨_, hasText_iff.mp hvalue, Option.map_eq_some_iff.mpr ⟨_, ih.mpr h, rfl⟩⟩

/-- Parts can be filled if their names have values. -/
theorem exists_fills_iff :
    (∃ text, Fills context parts text) ↔
      ∀ name ∈ (names parts).map String.ofList, HasScalar context name := by
  induction parts with
  | nil => exact iff_of_true ⟨[], .nil⟩ (by simp [names])
  | cons part parts ih =>
    cases part with
    | literal c =>
      rw [names, ← ih]
      constructor
      · rintro ⟨_, h⟩
        cases h with
        | literal _ h => exact ⟨_, h⟩
      · rintro ⟨text, h⟩
        exact ⟨c :: text, .literal c h⟩
    | placeholder name =>
      rw [names, List.map_cons, List.forall_mem_cons, ← ih]
      constructor
      · rintro ⟨_, h⟩
        cases h with
        | placeholder hvalue h => exact ⟨⟨_, hvalue⟩, _, h⟩
      · rintro ⟨⟨value, hvalue⟩, text, h⟩
        exact ⟨value ++ text, .placeholder hvalue h⟩

end Filled

/-! ### Reading by parts -/

variable {context : List (String × Json)} {rest : List Char}

theorem fillFrom_name {name : List Char} (hclose : '}' ∉ name) (before : List Char) :
    fillFrom context (some before) (name ++ '}' :: rest) =
      (valueOf context (before ++ name)).bind fun value =>
        (fillFrom context none rest).map (value ++ ·) := by
  induction name generalizing before with
  | nil => simp [fillFrom]
  | cons c name ih =>
    obtain ⟨hc, hname⟩ := not_or.mp (List.mem_cons.not.mp hclose)
    rw [List.cons_append, fillFrom, ih hname, List.append_assoc, List.singleton_append]
    exact fun heq => hc heq.symm

theorem fillFrom_unclosed (h : '}' ∉ rest) (before : List Char) :
    fillFrom context (some before) rest = none := by
  induction rest generalizing before with
  | nil => rfl
  | cons c rest ih =>
    obtain ⟨hc, hrest⟩ := not_or.mp (List.mem_cons.not.mp h)
    rw [fillFrom, ih hrest]
    exact fun heq => hc heq.symm

theorem isBrace_eq_false {c : Char} : isBrace c = false ↔ c ≠ '{' ∧ c ≠ '}' := by
  simp [isBrace]

theorem placeholdersWithin_plain {c : Char} (hopen : c ≠ '{') (hclose : c ≠ '}') (n : ℕ) :
    placeholdersWithin n (c :: rest) = placeholdersWithin n rest := by
  have hc := isBrace_eq_false.mpr ⟨hopen, hclose⟩
  cases n with
  | zero => rfl
  | succ n => rw [placeholdersWithin, placeholdersWithin, List.dropWhile_cons_of_pos (by simp [hc])]

/-- A turn at a brace that is opened. -/
theorem placeholdersWithin_brace (h : rest.head? ≠ some '{') (n : ℕ) :
    placeholdersWithin (n + 1) ('{' :: rest) =
      (splitOnce '}' rest).bind fun split => (placeholdersWithin n split.2).map (split.1 :: ·) := by
  rw [placeholdersWithin, List.dropWhile_cons_of_neg (by decide)]
  split
  · next heq => cases heq
  · next heq => exact absurd (congrArg List.head? (List.cons.inj heq).2) h
  · next heq => cases heq
  · next heq =>
    rw [(List.cons.inj heq).2]
    rcases splitOnce '}' _ with _ | ⟨name, tail⟩
    · rfl
    · cases hnames : placeholdersWithin n tail <;> simp [hnames]
  · next hbrace heq => exact absurd (List.cons.inj heq).1.symm hbrace

/-- A turn at a single brace that is closed. -/
theorem placeholdersWithin_lone (h : rest.head? ≠ some '}') (n : ℕ) :
    placeholdersWithin (n + 1) ('}' :: rest) = placeholdersWithin n rest := by
  rw [placeholdersWithin, List.dropWhile_cons_of_neg (by decide)]
  split
  · next heq => cases heq
  · next heq => cases heq
  · next heq => exact absurd (congrArg List.head? (List.cons.inj heq).2) h
  · next heq => cases heq
  · next heq => rw [(List.cons.inj heq).2]

/-- **What `fill` makes of a text**, part by part. -/
theorem fillFrom_eq {stop template : List Char} {parts : List Part}
    (h : Splits stop template parts) : fillFrom context none template =
      parts.foldr (Part.write (valueOf context)) (fillFrom context none stop) := by
  induction h with
  | nil => rfl
  | opened _ ih => rw [fillFrom, ih, List.foldr_cons, Part.write]
  | closed _ ih => rw [fillFrom, ih, List.foldr_cons, Part.write]
  | @placeholder name rest parts hfirst hclose _ ih =>
    have hnot : ∀ tail, name ++ '}' :: rest ≠ '{' :: tail := by
      intro tail heq
      cases name with
      | nil => cases heq
      | cons c name => exact hfirst (congrArg some (List.cons.inj heq).1)
    rw [List.cons_append, fillFrom, fillFrom_name hclose, List.nil_append, ih, List.foldr_cons,
      Part.write]
    exact hnot
  | lone hnext _ ih =>
    rw [fillFrom, ih, List.foldr_cons, Part.write]
    · intro tail heq
      cases heq
    · rintro tail - rfl
      exact hnext rfl
    · intro heq
      cases heq
  | plain hopen hclose _ ih =>
    rw [fillFrom, ih, List.foldr_cons, Part.write]
    · exact fun _ heq => absurd heq hopen
    · exact fun _ heq => absurd heq hclose
    · exact hopen

/-- **The names in a text**, part by part. -/
theorem placeholdersWithin_eq {stop template : List Char} {parts : List Part}
    (h : Splits stop template parts) {n : ℕ} (hn : template.length < n) :
    ∃ m, stop.length < m ∧
      placeholdersWithin n template = (placeholdersWithin m stop).map (names parts ++ ·) := by
  induction h generalizing n with
  | nil => exact ⟨n, hn, by simp [names]⟩
  | opened _ ih =>
    cases n with
    | zero => cases hn
    | succ n =>
      simp only [List.length_cons] at hn
      exact ih (by omega)
  | closed _ ih =>
    cases n with
    | zero => cases hn
    | succ n =>
      simp only [List.length_cons] at hn
      exact ih (by omega)
  | @placeholder name rest parts hfirst hclose _ ih =>
    cases n with
    | zero => cases hn
    | succ n =>
      simp only [List.length_cons, List.length_append] at hn
      have hfirst' : (name ++ '}' :: rest).head? ≠ some '{' := by
        cases name with
        | nil => simp
        | cons c name => exact hfirst
      obtain ⟨m, hm, hrest⟩ := ih (n := n) (by omega)
      refine ⟨m, hm, ?_⟩
      rw [List.cons_append, placeholdersWithin_brace hfirst', splitOnce_append hclose,
        Option.bind_some, hrest, Option.map_map]
      rfl
  | lone hnext _ ih =>
    cases n with
    | zero => cases hn
    | succ n =>
      simp only [List.length_cons] at hn
      rw [placeholdersWithin_lone hnext]
      exact ih (by omega)
  | plain hopen hclose _ ih =>
    simp only [List.length_cons] at hn
    rw [placeholdersWithin_plain hopen hclose]
    exact ih (by omega)

/-- A text has parts up to its end, or up to a brace that is never closed. -/
theorem splits_or_unclosed (template : List Char) :
    (∃ parts, Splits [] template parts) ∨ Unclosed template := by
  induction hlength : template.length using Nat.strong_induction_on generalizing template with
  | _ n ih =>
    have hrest : ∀ (rest : List Char) (part : Part), rest.length < n →
        (∀ stop parts, Splits stop rest parts → Splits stop template (part :: parts)) →
        (∃ parts, Splits [] template parts) ∨ Unclosed template := by
      intro rest part hlt hsplits
      rcases ih rest.length hlt rest rfl with ⟨parts, h⟩ | ⟨tail, parts, h, htail⟩
      · exact Or.inl ⟨part :: parts, hsplits [] parts h⟩
      · exact Or.inr ⟨tail, part :: parts, hsplits _ parts h, htail⟩
    cases template with
    | nil => exact Or.inl ⟨[], .nil⟩
    | cons c rest =>
      subst hlength
      by_cases hc : c ≠ '{' ∧ c ≠ '}'
      · exact hrest rest (.literal c) (Nat.lt_succ_self _) fun _ _ => .plain hc.1 hc.2
      · rw [not_and_or, not_not, not_not] at hc
        by_cases htwo : rest.head? = some c
        · obtain ⟨tail, rfl⟩ := List.head?_eq_some_iff.mp htwo
          have hlt : tail.length < (c :: c :: tail).length :=
            Nat.lt_succ_of_lt (Nat.lt_succ_self _)
          rcases hc with rfl | rfl
          · exact hrest tail (.literal '{') hlt fun _ _ => .opened
          · exact hrest tail (.literal '}') hlt fun _ _ => .closed
        · rcases hc with rfl | rfl
          · by_cases hclose : '}' ∈ rest
            · obtain ⟨name, tail, rfl, hname⟩ := List.eq_append_cons_of_mem hclose
              have hfirst : name.head? ≠ some '{' := by
                intro hname
                rw [List.head?_append, hname] at htwo
                exact htwo rfl
              refine hrest tail (.placeholder name) ?_ fun _ _ => .placeholder hfirst hname
              simp only [List.length_cons, List.length_append]
              omega
            · exact Or.inr ⟨rest, [], .nil, htwo, hclose⟩
          · exact hrest rest (.literal '}') (Nat.lt_succ_self _) fun _ _ => .lone htwo

/-! ### The two functions agree -/

/-- Neither function reads a text with a brace that is never closed. -/
theorem eq_none_of_unclosed {template : List Char} (h : Unclosed template) :
    placeholdersWithin (template.length + 1) template = none ∧
      ∀ context, fillFrom context none template = none := by
  obtain ⟨rest, parts, hsplits, hfirst, hclose⟩ := h
  constructor
  · obtain ⟨m, hm, heq⟩ := placeholdersWithin_eq hsplits (Nat.lt_succ_self _)
    cases m with
    | zero => cases hm
    | succ m =>
      rw [heq, placeholdersWithin_brace hfirst, splitOnce, if_neg hclose]
      rfl
  · intro context
    rw [fillFrom_eq hsplits, fillFrom, fillFrom_unclosed hclose, foldr_write_none]
    rintro tail rfl
    exact hfirst rfl

/-- The names, and what `fill` makes of values for them. -/
theorem eq_some_of_splits {template : List Char} {parts : List Part}
    (h : Splits [] template parts) :
    placeholdersWithin (template.length + 1) template = some (names parts) ∧
      ∀ context text, fillFrom context none template = some text ↔ Fills context parts text := by
  constructor
  · obtain ⟨m, hm, heq⟩ := placeholdersWithin_eq h (Nat.lt_succ_self _)
    cases m with
    | zero => cases hm
    | succ m =>
      refine heq.trans ?_
      rw [show placeholdersWithin (m + 1) [] = some [] from rfl, Option.map_some, List.append_nil]
  · intro context text
    rw [fillFrom_eq h, fillFrom, fillParts_iff]

/-- Every name of `found` has a value, of which there is one. -/
def someContext (found : List String) : List (String × Json) :=
  found.dedup.map fun name => (name, .str "")

theorem keys_someContext (found : List String) :
    ((someContext found).map Prod.fst).Nodup := by
  rw [someContext, List.map_map, show Prod.fst ∘ (fun name : String => (name, Json.str "")) = id
    from rfl, List.map_id]
  exact List.nodup_dedup found

theorem hasScalar_someContext {found : List String} {name : String} (h : name ∈ found) :
    HasScalar (someContext found) name := by
  refine ⟨_, .str "", ?_, .str ""⟩
  have hfind : (someContext found).find? (fun member => member.1 = name) =
      some (name, .str "") := by
    have hkey : found.dedup.find? (fun name' => name' = name) = some name := by
      have hfound : (found.dedup.find? fun name' => name' = name).isSome = true :=
        List.find?_isSome.mpr ⟨name, List.mem_dedup.mpr h, decide_eq_true rfl⟩
      obtain ⟨name', hname'⟩ := Option.isSome_iff_exists.mp hfound
      have heq : name' = name := by simpa using List.find?_some hname'
      rw [hname', heq]
    rw [someContext, List.find?_map]
    exact congrArg (Option.map fun name => (name, Json.str "")) hkey
  rw [Json.get, hfind]
  rfl

/-- What is read of a text that has parts. -/
theorem placeholders_of_splits {template : String} {parts : List Part}
    (h : Splits [] template.toList parts) :
    placeholders template = some ((names parts).map String.ofList) ∧
      ∀ context : List (String × Json),
        ((fill template context).isSome = true ↔
          ∀ name ∈ (names parts).map String.ofList, HasScalar context name) ∧
        ∀ text, fill template context = some text ↔ Fills context parts text.toList := by
  obtain ⟨hnames, hfill⟩ := eq_some_of_splits h
  refine ⟨by rw [placeholders, hnames, Option.map_some], fun context => ?_⟩
  rw [fill, Option.isSome_map, Option.isSome_iff_exists, ← exists_fills_iff]
  refine ⟨exists_congr fun text => hfill context text, fun text => ?_⟩
  rw [← hfill context text.toList, Option.map_eq_some_iff]
  constructor
  · rintro ⟨chars, hchars, rfl⟩
    rw [hchars, String.toList_ofList]
  · intro hchars
    exact ⟨text.toList, hchars, String.ofList_toList⟩

theorem eq_none_of_unclosed_text {template : String} (h : Unclosed template.toList) :
    placeholders template = none ∧ ∀ context, fill template context = none := by
  obtain ⟨hnames, hfill⟩ := eq_none_of_unclosed h
  exact ⟨by rw [placeholders, hnames, Option.map_none],
    fun context => by rw [fill, hfill context, Option.map_none]⟩

/-- **A text whose names have values can be filled**, and this is what with. -/
theorem fill_of_placeholders {template : String} {found : List String}
    (h : placeholders template = some found) :
    ∃ parts, Splits [] template.toList parts ∧ found = (names parts).map String.ofList ∧
      ∀ context : List (String × Json),
        ((fill template context).isSome = true ↔ ∀ name ∈ found, HasScalar context name) ∧
        ∀ text, fill template context = some text ↔ Fills context parts text.toList := by
  rcases splits_or_unclosed template.toList with ⟨parts, hsplits⟩ | hunclosed
  · obtain ⟨hnames, hfill⟩ := placeholders_of_splits hsplits
    obtain rfl := Option.some.inj (hnames.symm.trans h)
    exact ⟨parts, hsplits, rfl, hfill⟩
  · rw [(eq_none_of_unclosed_text hunclosed).1] at h
    cases h

/-- **The two functions agree.** -/
theorem placeholders_agrees (template : String) :
    (placeholders template = none ↔
      ∀ context : List (String × Json), (context.map Prod.fst).Nodup →
        fill template context = none) ∧
    (placeholders template = none ↔ Unclosed template.toList) ∧
    ∀ found, placeholders template = some found →
      ∃ parts, Splits [] template.toList parts ∧ found = (names parts).map String.ofList ∧
        ∀ context : List (String × Json),
          ((fill template context).isSome = true ↔ ∀ name ∈ found, HasScalar context name) ∧
          ∀ text, fill template context = some text ↔ Fills context parts text.toList := by
  refine ⟨?_, ?_, fun found => fill_of_placeholders⟩
  · constructor
    · intro hnone
      rcases splits_or_unclosed template.toList with ⟨parts, h⟩ | h
      · rw [(placeholders_of_splits h).1] at hnone
        cases hnone
      · exact fun context _ => (eq_none_of_unclosed_text h).2 context
    · intro hnone
      by_contra hsome
      obtain ⟨found, hfound⟩ := Option.ne_none_iff_exists'.mp hsome
      obtain ⟨_, -, -, hfill⟩ := fill_of_placeholders hfound
      have hvalues := (hfill (someContext found)).1.mpr fun _ hname =>
        hasScalar_someContext hname
      rw [hnone _ (keys_someContext found)] at hvalues
      cases hvalues
  · refine ⟨fun hnone => ?_, fun h => (eq_none_of_unclosed_text h).1⟩
    rcases splits_or_unclosed template.toList with ⟨parts, h⟩ | h
    · rw [(placeholders_of_splits h).1] at hnone
      cases hnone
    · exact h

end Login

end WeaveAuth
