import Elastic.Proofs.Build.Calls

namespace Elastic

/-! What every operation of a construction keeps, whatever its arguments, a whole recipe keeps. -/

variable {setting : Setting} {elaborate : String → Elaborating ModuleId} {good : Builder → Prop}

/-- A property of builders that no operation ends, and that neither the notes nor what is lent
matter to. -/
structure OperationInvariant (setting : Setting) (elaborate : String → Elaborating ModuleId)
    (good : Builder → Prop) : Prop where
  port : ∀ name, Maintains good (Construction.port name)
  constant : ∀ ty value, Maintains good (Construction.constant ty value)
  bool : ∀ value, Maintains good (Construction.bool value)
  struct : ∀ ty fields, Maintains good (Construction.struct ty fields)
  field : ∀ base name, Maintains good (Construction.field base name)
  and : ∀ first second, Maintains good (Construction.and first second)
  or : ∀ first second, Maintains good (Construction.or first second)
  not : ∀ operand, Maintains good (Construction.not operand)
  wrap : ∀ payload value valid, Maintains good (Construction.wrap payload value valid)
  unwrap : ∀ channel ready, Maintains good (Construction.unwrap channel ready)
  pack : ∀ ty channels, Maintains good (Construction.pack ty channels)
  unpack : ∀ handle channels, Maintains good (Construction.unpack handle channels)
  call : ∀ service operation handle appId,
    Maintains good (Construction.call setting service operation handle appId)
  request : ∀ service operation appId,
    Maintains good (Construction.request setting service operation appId)
  builtin : ∀ service appId tag results inputs,
    Maintains good (Construction.builtin setting service appId tag results inputs)
  instantiate : ∀ child appId connections,
    Maintains good (Construction.instantiate elaborate child appId connections)
  withHoldings : ∀ (builder : Builder) notes holdings, good builder →
    good { builder with shared := { builder.shared with notes := notes, holdings := holdings } }

namespace OperationInvariant

theorem results {operation : Construction α} (maintains : Maintains good operation)
    (results : α → List Holding) :
    Maintains good (operation >>= fun value => pure (results value)) :=
  maintains.bind fun _ => .pure _

theorem run (operationInvariant : OperationInvariant setting elaborate good) (call : Call) :
    Maintains good (call.run setting elaborate) := by
  cases call with
  | port name => exact results (operationInvariant.port name) _
  | constant ty value => exact results (operationInvariant.constant ty value) _
  | bool value => exact results (operationInvariant.bool value) _
  | struct ty fields => exact results (operationInvariant.struct ty fields) _
  | field base name => exact results (operationInvariant.field base name) _
  | and first second => exact results (operationInvariant.and first second) _
  | or first second => exact results (operationInvariant.or first second) _
  | not operand => exact results (operationInvariant.not operand) _
  | wrap payload value valid => exact results (operationInvariant.wrap payload value valid) _
  | unwrap channel ready => exact results (operationInvariant.unwrap channel ready) _
  | pack ty channels => exact results (operationInvariant.pack ty channels) _
  | unpack handle channels => exact results (operationInvariant.unpack handle channels) _
  | call service operation handle appId =>
      exact results (operationInvariant.call service operation handle appId) _
  | request service operation appId =>
      exact results (operationInvariant.request service operation appId) _
  | builtin service appId tag given inputs =>
      exact results (operationInvariant.builtin service appId tag given inputs) _
  | instantiate child appId connections =>
      exact results (operationInvariant.instantiate child appId connections) _

theorem stepInvariant (operationInvariant : OperationInvariant setting elaborate good) :
    StepInvariant False setting elaborate (fun _ assembly => good assembly.builder)
      fun _ => True where
  move _ lent holds _ _ _ := operationInvariant.withHoldings _ _ lent holds
  note _ holds := operationInvariant.withHoldings _ _ _ holds
  call call holds := (operationInvariant.run call _ holds).mono (fun _ _ after => after)
    fun _ _ after => ⟨after, trivial⟩
  nothing _ := trivial
  role _ _ := trivial

theorem recipe (operationInvariant : OperationInvariant setting elaborate good) (recipe : Recipe) :
    Maintains (fun assembly : Assembly => good assembly.builder) (recipe.run setting elaborate) :=
  fun assembly holds =>
    (operationInvariant.stepInvariant.recipe recipe False.elim assembly holds).mono
    (fun _ _ after => after) fun _ _ badly => badly.1

end OperationInvariant

end Elastic
