import Elastic.AppId
import Elastic.Service

namespace Elastic

/-! Recipes: how a module is put together, as data. A recipe names the values, channels, bundles and
sets of role channels that its steps give, and later steps refer to them by these names. -/

abbrev Label := String

inductive Step
  | port (name : String) (result : Option Label)
  | constant (ty : Ty) (value : UInt64) (result : Option Label)
  | bool (value : Bool) (result : Option Label)
  | struct (ty : Ty) (fields : List (String × Label)) (result : Option Label)
  | field (value : Label) (name : String) (result : Option Label)
  | and (first second : Label) (result : Option Label)
  | or (first second : Label) (result : Option Label)
  | not (operand : Label) (result : Option Label)
  | wrap (payload : Ty) (value valid : Label) (channel ready : Option Label)
  | unwrap (channel ready : Label) (data valid : Option Label)
  | pack (ty : BundleTy) (channels : List (String × Label)) (bundle returned : Option Label)
  | unpack (bundle : Label) (channels : List (String × Label)) (returned : Option Label)
  | take (returned : Label) (role : String) (channel : Option Label)
  | call (service : Service) (operation : String) (bundle : Label) (appId : AppId)
  | request (service : Service) (operation : String) (appId : AppId) (bundle : Option Label)
  | builtin (service : Service) (appId : AppId) (tag : String) (results : List Ty)
      (inputs : List Label) (values : List (Option Label))
  | instantiate (module : String) (appId : AppId) (connections : List (String × Label))
  | noteCapabilities
  | noteHolding (label : Label)
  | lend (label : Label)
  | borrow (label : Label)

inductive Recipe
  | done
  | step (first : Step) (rest : Recipe)
  | ifHost (yes no rest : Recipe)
  /-- Goes on after a failure of the body, and notes how the body ended. -/
  | attempt (body rest : Recipe)

namespace Recipe

instance : Inhabited Recipe := ⟨.done⟩

def ofSteps (steps : List Step) (rest : Recipe) : Recipe :=
  steps.foldr .step rest

end Recipe

end Elastic
