namespace Elastic.Text

/-! Attribute values of markup: the five characters with predefined entities are written as
these. -/

def entity? (c : Char) : Option (List Char) :=
  if c = '&' then some "&amp;".toList
  else if c = '<' then some "&lt;".toList
  else if c = '>' then some "&gt;".toList
  else if c = '"' then some "&quot;".toList
  else if c = '\'' then some "&apos;".toList
  else none

def markupChars (text : List Char) : List Char :=
  text.flatMap fun c => (entity? c).getD [c]

def markup (text : String) : String := String.ofList (markupChars text.toList)

def unmarkup : List Char → List Char
  | '&' :: 'a' :: 'm' :: 'p' :: ';' :: rest => '&' :: unmarkup rest
  | '&' :: 'l' :: 't' :: ';' :: rest => '<' :: unmarkup rest
  | '&' :: 'g' :: 't' :: ';' :: rest => '>' :: unmarkup rest
  | '&' :: 'q' :: 'u' :: 'o' :: 't' :: ';' :: rest => '"' :: unmarkup rest
  | '&' :: 'a' :: 'p' :: 'o' :: 's' :: ';' :: rest => '\'' :: unmarkup rest
  | c :: rest => c :: unmarkup rest
  | [] => []

end Elastic.Text
