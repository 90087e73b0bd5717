namespace Elastic

/-! Numbered names. Each distinct text gets the next number when it is first seen, so a number
stands for one text for ever. -/

abbrev Ident := Nat

structure Names where
  texts : Array String := #[]
deriving DecidableEq, Repr, Inhabited

namespace Names

def empty : Names := {}

def size (names : Names) : Nat := names.texts.size

def find? (names : Names) (text : String) : Option Ident :=
  names.texts.findIdx? (· = text)

def intern (names : Names) (text : String) : Ident × Names :=
  match names.find? text with
  | some ident => (ident, names)
  | none => (names.size, ⟨names.texts.push text⟩)

def text? (names : Names) (ident : Ident) : Option String := names.texts[ident]?

def text (names : Names) (ident : Ident) : String := (names.text? ident).getD ""

theorem text?_intern (names : Names) (text : String) :
    (names.intern text).2.text? (names.intern text).1 = some text := by
  unfold intern
  split
  · rename_i ident found
    obtain ⟨bound, equal, _⟩ := Array.findIdx?_eq_some_iff_getElem.1 found
    simpa [text?, bound] using equal
  · simp [text?, size]

theorem text?_intern_of_text? {names : Names} {ident : Ident} {held : String} (text : String)
    (known : names.text? ident = some held) :
    (names.intern text).2.text? ident = some held := by
  unfold intern
  split
  · exact known
  · obtain ⟨bound, equal⟩ := Array.getElem?_eq_some_iff.1 known
    simp [text?, Array.getElem?_push_lt bound, equal]

end Names

end Elastic
