import Elastic.Text.Blank
import Elastic.Text.Markup
import Mathlib.Data.List.Basic

namespace Elastic.Text

/-! Markup that is read back. What is marked up has none of the characters in it that end a value or
a tag, and its entities stand for the characters that it was made of. -/

variable {c mark : Char}

def delimiters : List Char := ['<', '>', '"', '\'']

theorem entity?_eq_none (plain : c ∉ '&' :: delimiters) : entity? c = none := by
  simp only [delimiters, List.mem_cons, List.not_mem_nil, or_false, not_or] at plain
  simp only [entity?, plain, if_false]

theorem not_mem_entity (delimiter : mark ∈ delimiters) : mark ∉ (entity? c).getD [c] := by
  by_cases special : c ∈ '&' :: delimiters
  · simp only [delimiters, List.mem_cons, List.not_mem_nil, or_false] at special delimiter
    rcases special with rfl | rfl | rfl | rfl | rfl <;>
      rcases delimiter with rfl | rfl | rfl | rfl <;> decide
  · rw [entity?_eq_none special, Option.getD_none, List.mem_singleton]
    rintro rfl
    exact special (List.mem_cons_of_mem _ delimiter)

theorem not_mem_markupChars (delimiter : mark ∈ delimiters) (text : List Char) :
    mark ∉ markupChars text := by
  intro member
  obtain ⟨c, -, inside⟩ := List.mem_flatMap.1 member
  exact not_mem_entity delimiter inside

theorem unmarkup_cons_of_ne (plain : c ≠ '&') (rest : List Char) :
    unmarkup (c :: rest) = c :: unmarkup rest := by
  rw [unmarkup] <;> exact fun _ same => absurd same plain

theorem unmarkup_entity (c : Char) (rest : List Char) :
    unmarkup ((entity? c).getD [c] ++ rest) = c :: unmarkup rest := by
  by_cases special : c ∈ '&' :: delimiters
  · simp only [delimiters, List.mem_cons, List.not_mem_nil, or_false] at special
    rcases special with rfl | rfl | rfl | rfl | rfl <;> rfl
  · rw [entity?_eq_none special]
    exact unmarkup_cons_of_ne (fun same => special (same ▸ List.mem_cons_self)) rest

theorem unmarkup_markupChars (text : List Char) : unmarkup (markupChars text) = text := by
  induction text with
  | nil => rfl
  | cons c rest induction =>
      rw [markupChars, List.flatMap_cons, unmarkup_entity]
      exact congrArg (c :: ·) induction

inductive TagKind
  | declaration
  | opening
  | closing
  | single
deriving DecidableEq, Repr

/-- A tag with its attributes in order, their values as they are meant. -/
structure Tag where
  kind : TagKind
  name : String
  attributes : List (String × String) := []
deriving DecidableEq, Repr

namespace Tag

def value? (tag : Tag) (key : String) : Option String :=
  (tag.attributes.find? (·.1 = key)).map (·.2)

inductive Place
  | outside
  | opened
  | naming (kind : TagKind) (name : List Char)
  | inside (tag : Tag)
  | key (tag : Tag) (name : List Char)
  | equals (tag : Tag) (name : List Char)
  | value (tag : Tag) (name : List Char) (read : List Char)
  | ending (tag : Tag)
deriving DecidableEq, Repr

abbrev State := List Tag × Place

def isNameChar (c : Char) : Bool := c.isAlphanum || c = '_' || c = '-' || c = '.' || c = ':'

def isKey (name : List Char) : Bool := !name.isEmpty && name.all isNameChar

def stepInside (tags : List Tag) (tag : Tag) (c : Char) : Option State :=
  if isNameChar c then some (tags, .key tag [c])
  else if isBlank c then some (tags, .inside tag)
  else if c = '>' ∧ (tag.kind = .opening ∨ tag.kind = .closing) then
    some (tags ++ [tag], .outside)
  else if c = '/' ∧ tag.kind = .opening then some (tags, .ending { tag with kind := .single })
  else if c = '?' ∧ tag.kind = .declaration then some (tags, .ending tag)
  else none

/-- Reads a character. There are only blanks between tags. A value goes on up to the next quotation
mark, with no tag opened in it, and stands for what its entities are replaced by. -/
def step : State → Char → Option State
  | (tags, .outside), c =>
    if isBlank c then some (tags, .outside)
    else if c = '<' then some (tags, .opened)
    else none
  | (tags, .opened), c =>
    if c = '?' then some (tags, .naming .declaration [])
    else if c = '/' then some (tags, .naming .closing [])
    else if isNameChar c then some (tags, .naming .opening [c])
    else none
  | (tags, .naming kind name), c =>
    if isNameChar c then some (tags, .naming kind (name ++ [c]))
    else stepInside tags { kind := kind, name := String.ofList name } c
  | (tags, .inside tag), c => stepInside tags tag c
  | (tags, .key tag name), c =>
    if isNameChar c then some (tags, .key tag (name ++ [c]))
    else if c = '=' then some (tags, .equals tag name)
    else none
  | (tags, .equals tag name), c => if c = '"' then some (tags, .value tag name []) else none
  | (tags, .value tag name read), c =>
    if c = '"' then
      some (tags, .inside { tag with
        attributes := tag.attributes ++ [(String.ofList name, String.ofList (unmarkup read))] })
    else if c = '<' then none
    else some (tags, .value tag name (read ++ [c]))
  | (tags, .ending tag), c => if c = '>' then some (tags ++ [tag], .outside) else none

def read (state : State) (text : List Char) : Option State := text.foldlM step state

/-- The tags of a text, if it consists of tags. -/
def tags? (text : String) : Option (List Tag) :=
  match read ([], .outside) text.toList with
  | some (tags, .outside) => some tags
  | _ => none

def Leads (state : State) (text : List Char) (after : State) : Prop :=
  read state text = some after

variable {state between after : State} {tags : List Tag} {tag : Tag} {name : List Char}

theorem Leads.nil : Leads state [] state := rfl

theorem Leads.append {front rest : List Char} (first : Leads state front between)
    (second : Leads between rest after) : Leads state (front ++ rest) after := by
  rw [Leads, read, List.foldlM_append]
  exact Option.bind_eq_some_iff.2 ⟨between, first, second⟩

theorem Leads.cons {rest : List Char} (first : step state c = some between)
    (second : Leads between rest after) : Leads state (c :: rest) after :=
  Option.bind_eq_some_iff.2 ⟨between, first, second⟩

theorem stepInside_append (front tags : List Tag) (tag : Tag) (c : Char) :
    stepInside (front ++ tags) tag c =
      (stepInside tags tag c).map fun state => (front ++ state.1, state.2) := by
  unfold stepInside
  split_ifs <;> simp

theorem step_append (front tags : List Tag) (place : Place) (c : Char) :
    step (front ++ tags, place) c =
      (step (tags, place) c).map fun after => (front ++ after.1, after.2) := by
  cases place with
  | inside tag => exact stepInside_append front tags tag c
  | naming kind name =>
      simp only [step]
      split_ifs
      · rfl
      · exact stepInside_append front tags _ c
  | outside | opened | key | equals | value | ending =>
      simp only [step]
      split_ifs <;> simp

theorem Leads.behind {text : List Char} {tags' : List Tag} {place place' : Place}
    (front : List Tag) (leads : Leads (tags, place) text (tags', place')) :
    Leads (front ++ tags, place) text (front ++ tags', place') := by
  induction text generalizing tags place with
  | nil =>
      cases leads
      exact .nil
  | cons c rest induction =>
      obtain ⟨next, first, more⟩ := Option.bind_eq_some_iff.1 leads
      refine .cons ?_ (induction more)
      rw [step_append, first, Option.map_some]

theorem leads_key (characters : name.all isNameChar = true) (read : List Char) :
    Leads (tags, .key tag read) name (tags, .key tag (read ++ name)) := by
  induction name generalizing read with
  | nil => rw [List.append_nil]; exact .nil
  | cons c rest induction =>
      obtain ⟨character, others⟩ := Bool.and_eq_true_iff.1 characters
      refine .cons (if_pos character) ?_
      have more := induction others (read ++ [c])
      rwa [List.append_assoc, List.singleton_append] at more

theorem leads_value {value : List Char} (quoted : '"' ∉ value) (closed : '<' ∉ value)
    (read : List Char) :
    Leads (tags, .value tag name read) value (tags, .value tag name (read ++ value)) := by
  induction value generalizing read with
  | nil => rw [List.append_nil]; exact .nil
  | cons c rest induction =>
      obtain ⟨quote, quotes⟩ := not_or.1 (mt List.mem_cons.2 quoted)
      obtain ⟨angle, angles⟩ := not_or.1 (mt List.mem_cons.2 closed)
      have first : step (tags, .value tag name read) c =
          some (tags, .value tag name (read ++ [c])) :=
        (if_neg (Ne.symm quote)).trans (if_neg (Ne.symm angle))
      have more := induction quotes angles (read ++ [c])
      rw [List.append_assoc, List.singleton_append] at more
      exact .cons first more

/-- An attribute whose value is marked up is read with the value as it was. -/
theorem leads_attribute (named : isKey name = true)
    (blank : step state ' ' = some (tags, .inside tag)) (value : List Char) :
    Leads state (' ' :: (name ++ ('=' :: '"' :: (markupChars value ++ ['"']))))
      (tags, .inside { tag with
        attributes := tag.attributes ++ [(String.ofList name, String.ofList value)] }) := by
  obtain ⟨nonempty, characters⟩ := Bool.and_eq_true_iff.1 named
  obtain ⟨c, rest, rfl⟩ := List.exists_cons_of_ne_nil (by simpa using nonempty)
  obtain ⟨character, others⟩ := Bool.and_eq_true_iff.1 characters
  have begun : step (tags, .inside tag) c = some (tags, .key tag [c]) := if_pos character
  have quoted : '"' ∉ markupChars value := not_mem_markupChars (by decide) value
  have closed : '<' ∉ markupChars value := not_mem_markupChars (by decide) value
  have ended : step (tags, .value tag (c :: rest) (markupChars value)) '"' =
      some (tags, .inside { tag with
        attributes := tag.attributes ++ [(String.ofList (c :: rest), String.ofList value)] }) := by
    rw [step, if_pos rfl, unmarkup_markupChars]
  refine .cons blank (.cons begun (.append (leads_key others [c]) (.cons rfl (.cons rfl ?_))))
  exact .append (leads_value quoted closed []) (.cons ended .nil)

end Tag

end Elastic.Text
