import Elastic.Arbitration

namespace Elastic

inductive BackendPreset
  | cosim
  | xrt
deriving DecidableEq, Repr, Inhabited

namespace BackendPreset

def text : BackendPreset → String
  | .cosim => "cosim"
  | .xrt => "xrt"

def all : List BackendPreset := [.cosim, .xrt]

def ofText? (name : String) : Option BackendPreset :=
  let lower := String.ofList (name.toList.map Char.toLower)
  all.find? (·.text = lower)

def defaultPolicy : BackendPreset → ArbitrationPolicy
  | .cosim => .roundRobin
  | .xrt => .fixedPriority

end BackendPreset

structure Capabilities where
  hostChannels : Bool
  builtins : List String
deriving DecidableEq, Repr, Inhabited

namespace Capabilities

def supports (capabilities : Capabilities) (tag : String) : Bool :=
  capabilities.builtins.contains tag

end Capabilities

def memoryTag : String := "sv_mem"

def BackendPreset.capabilities : BackendPreset → Capabilities
  | .cosim => ⟨true, [memoryTag]⟩
  | .xrt => ⟨false, [memoryTag]⟩

/-- A backend, with what it answers each time it is asked for its capabilities. -/
structure Backend where
  preset : BackendPreset
  capabilities : Nat → Capabilities

namespace Backend

def stock (preset : BackendPreset) : Backend where
  preset := preset
  capabilities := fun _ => preset.capabilities

/-- A backend whose later answers differ from its first. -/
def changing (preset : BackendPreset) (first later : Capabilities) : Backend where
  preset := preset
  capabilities := fun query => if query = 0 then first else later

instance : Inhabited Backend := ⟨stock .cosim⟩

end Backend

end Elastic
