import Elastic.Text.Blank
import Elastic.Text.Numeral

namespace Elastic

/-! Assignments on the command line: values of inputs, as in `NAME=VALUE`, and of words of memories,
as in `PATH:ADDRESS=VALUE`. -/

namespace Stimulus

open Text

def number (text : List Char) : Except String UInt64 :=
  (readWord text).mapError fun error =>
    "invalid number '" ++ String.ofList text ++ "': " ++ error.message

/-- The name and the value around the first equals sign, without the blanks around them. -/
def assignment (text : List Char) : Except String (List Char × UInt64) :=
  match splitFirst? '=' text with
  | none => .error ("expected NAME=VALUE, got '" ++ String.ofList text ++ "'")
  | some (before, after) =>
    let name := trimChars before
    if name.isEmpty then .error ("missing name in '" ++ String.ofList text ++ "'")
    else (number (trimChars after)).map fun value => (name, value)

structure Poke where
  path : String
  address : UInt64
  value : UInt64
deriving DecidableEq, Repr

/-- A word of a memory and its value. The address stands after the last colon. -/
def poke (text : List Char) : Except String Poke := do
  let (place, value) ← assignment text
  match splitLast? ':' place with
  | none => .error ("expected PATH:ADDRESS=VALUE, got '" ++ String.ofList text ++ "'")
  | some (path, address) =>
    let address ← number address
    return ⟨String.ofList path, address, value⟩

end Stimulus

end Elastic
