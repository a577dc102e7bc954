import Mathlib.Data.List.DropRight

/-!
# Cache directives

A line of `Cache-Control`, by the grammars of RFC 9110 and RFC 9111: a list, whose members are
between commas, and a member a directive, which may have a token or a quoted string for its
argument. A quoted string may have commas of its own. A member of another shape is no directive.

A line is read as characters, one for each byte.

## Main results

* `takeWhile_mem_splitOn`: up to its first comma, a member is one of the texts between all commas
* `eq_of_readDirective`: what there is in a member that is a directive

## Scope

Blanks around a member are none of it, and a member of blanks alone is no directive. A directive
keeps its name as it is written: that names are compared without regard to case is for whoever looks
for one. What a cache does about two directives that contradict each other is not asked here.
-/

namespace WeaveAuth

namespace CacheControl

/-! ### Characters -/

/-- `tchar`. -/
def isTchar (c : Char) : Bool := c.isAlphanum || "!#$%&'*+-.^_`|~".toList.contains c

/-- `OWS` is of these. -/
def isBlank (c : Char) : Bool := c = ' ' || c = '\t'

/-- What may come after a backslash in a quoted string. -/
def isQuotable (c : Char) : Bool :=
  c = '\t' || (0x20 ≤ c.toNat && c.toNat ≤ 0x7E) || (0x80 ≤ c.toNat && c.toNat ≤ 0xFF)

/-- `qdtext`. -/
def isQdtext (c : Char) : Bool := isQuotable c && c ≠ '"' && c ≠ '\\'

/-! ### Lists -/

/-- Where in a list its reader is: in no quoted string, in one, or after a backslash in one. -/
inductive Place where
  | plain
  | quoted
  | escaped
  deriving DecidableEq

def Place.next : Place → Char → Place
  | plain, c => if c = '"' then quoted else plain
  | quoted, c => if c = '"' then plain else if c = '\\' then escaped else quoted
  | escaped, _ => quoted

/-- The rest of a member, and the members after it. -/
def membersFrom : Place → List Char → List (List Char)
  | _, [] => [[]]
  | place, c :: rest =>
    if c = ',' ∧ place = .plain then [] :: membersFrom .plain rest
    else (membersFrom (place.next c) rest).modifyHead (c :: ·)

/-- What is between the commas that are in no quoted string. -/
def members (line : List Char) : List (List Char) := membersFrom .plain line

/-! ### Directives -/

structure Directive where
  name : List Char
  argument : Option (List Char)
  deriving DecidableEq

def isToken (text : List Char) : Bool := text ≠ [] && text.all isTchar

/-- A quoted string without the quote that begins it. -/
def isQuotedRest : List Char → Bool
  | [] => false
  | ['"'] => true
  | '\\' :: c :: rest => isQuotable c && isQuotedRest rest
  | c :: rest => isQdtext c && isQuotedRest rest

def isQuotedString : List Char → Bool
  | '"' :: rest => isQuotedRest rest
  | _ => false

def trimBlanks (text : List Char) : List Char := (text.dropWhile isBlank).rdropWhile isBlank

/-- The directive that a member is. -/
def readDirective (member : List Char) : Option Directive :=
  let text := trimBlanks member
  let name := text.takeWhile isTchar
  match text.dropWhile isTchar with
  | [] => if name = [] then none else some ⟨name, none⟩
  | c :: argument =>
    if c = '=' ∧ name ≠ [] ∧ (isToken argument || isQuotedString argument) = true then
      some ⟨name, some argument⟩
    else none

/-- The directives of a line. -/
def directives (line : List Char) : List Directive := (members line).filterMap readDirective

example : directives "max-age=60, no-cache=\"a, \\\", b\" ,, x y, Private".toList =
    [⟨"max-age".toList, some "60".toList⟩, ⟨"no-cache".toList, some "\"a, \\\", b\"".toList⟩,
      ⟨"Private".toList, none⟩] := by
  decide +kernel

/-! ### What members are made of -/

/-- Whatever the place: the first member begins as the first text between two commas, and the others
with others of these. -/
theorem takeWhile_membersFrom (place : Place) (line : List Char) :
    ∃ first others, membersFrom place line = first :: others ∧
      ∃ rest, line.splitOn ',' = first.takeWhile (· ≠ ',') :: rest ∧
        ∀ member ∈ others, member.takeWhile (· ≠ ',') ∈ rest := by
  induction line generalizing place with
  | nil => exact ⟨[], [], rfl, [], rfl, by simp⟩
  | cons c line ih =>
    rw [membersFrom, List.splitOn_cons_eq_if_modifyHead]
    by_cases hcomma : c = ','
    · subst hcomma
      rw [if_pos (beq_self_eq_true _)]
      by_cases hplace : place = .plain
      · obtain ⟨first, others, hmembers, rest, hsplit, hothers⟩ := ih .plain
        rw [if_pos ⟨rfl, hplace⟩, hmembers, hsplit]
        refine ⟨[], _, rfl, _, rfl, ?_⟩
        rw [List.forall_mem_cons]
        exact ⟨List.mem_cons_self, fun member hmem => List.mem_cons_of_mem _ (hothers member hmem)⟩
      · obtain ⟨first, others, hmembers, rest, hsplit, hothers⟩ := ih (place.next ',')
        rw [if_neg fun h => hplace h.2, hmembers, hsplit]
        refine ⟨',' :: first, others, rfl, first.takeWhile (· ≠ ',') :: rest, ?_, ?_⟩
        · rw [List.takeWhile_cons_of_neg (by simp)]
        · exact fun member hmem => List.mem_cons_of_mem _ (hothers member hmem)
    · obtain ⟨first, others, hmembers, rest, hsplit, hothers⟩ := ih (place.next c)
      rw [if_neg fun h => hcomma h.1, if_neg (by simpa using hcomma), hmembers, hsplit]
      refine ⟨c :: first, others, rfl, rest, ?_, hothers⟩
      rw [List.takeWhile_cons_of_pos (by simpa using hcomma)]
      rfl

/-- **Up to its first comma, a member is between two commas.** -/
theorem takeWhile_mem_splitOn {line member : List Char} (h : member ∈ members line) :
    member.takeWhile (· ≠ ',') ∈ line.splitOn ',' := by
  obtain ⟨first, others, hmembers, rest, hsplit, hothers⟩ := takeWhile_membersFrom .plain line
  rw [members, hmembers] at h
  rw [hsplit]
  rcases List.mem_cons.mp h with rfl | h
  · exact List.mem_cons_self
  · exact List.mem_cons_of_mem _ (hothers member h)

/-! ### What directives are made of -/

theorem exists_trimBlanks (text : List Char) : ∃ before after,
    (∀ c ∈ before, isBlank c = true) ∧ (∀ c ∈ after, isBlank c = true) ∧
      text = before ++ trimBlanks text ++ after := by
  refine ⟨text.takeWhile isBlank, (text.dropWhile isBlank).rtakeWhile isBlank,
    fun c hc => List.mem_takeWhile_imp hc, fun c hc => List.mem_rtakeWhile_imp hc, ?_⟩
  rw [List.append_assoc, trimBlanks, List.rdropWhile_append_rtakeWhile,
    List.takeWhile_append_dropWhile]

/-- A name, among blanks, and an argument after it. -/
theorem eq_of_readDirective {member : List Char} {d : Directive}
    (h : readDirective member = some d) : ∃ before after, (∀ c ∈ before, isBlank c = true) ∧
      (∀ c ∈ d.name, isTchar c = true) ∧
      ((d.argument = none ∧ (∀ c ∈ after, isBlank c = true) ∧ member = before ++ d.name ++ after) ∨
        ∃ argument, d.argument = some argument ∧ member = before ++ d.name ++ '=' :: after) := by
  obtain ⟨before, after, hbefore, hafter, hmember⟩ := exists_trimBlanks member
  have htext : trimBlanks member = (trimBlanks member).takeWhile isTchar ++
      (trimBlanks member).dropWhile isTchar := List.takeWhile_append_dropWhile.symm
  simp only [readDirective] at h
  split at h
  · next hrest =>
    obtain ⟨-, hsome⟩ := Option.ite_none_left_eq_some.mp h
    obtain rfl := Option.some.inj hsome
    refine ⟨before, after, hbefore, fun c hc => List.mem_takeWhile_imp hc, .inl ⟨rfl, hafter, ?_⟩⟩
    rw [hrest, List.append_nil] at htext
    rw [← htext]
    exact hmember
  · next c argument hrest =>
    obtain ⟨⟨rfl, -⟩, hsome⟩ := Option.ite_none_right_eq_some.mp h
    obtain rfl := Option.some.inj hsome
    refine ⟨before, argument ++ after, hbefore, fun c hc => List.mem_takeWhile_imp hc,
      .inr ⟨argument, rfl, ?_⟩⟩
    rw [hrest] at htext
    conv_lhs => rw [hmember, htext]
    simp

end CacheControl

end WeaveAuth
