import Elastic.Metadata
import Elastic.Build.Error
import Elastic.Build.Recipe

namespace Elastic

structure ModuleDecl where
  name : String
  ports : List (String × Ty) := []
  metadata : Option Metadata := none
  recipe : Recipe := .done
deriving Inhabited

structure Library where
  modules : List ModuleDecl := []
  services : List Service := []
deriving Inhabited

namespace Library

def empty : Library := {}

def module? (library : Library) (name : String) : Option ModuleDecl :=
  library.modules.find? (·.name = name)

def service? (library : Library) (name : String) : Option (Nat × Service) :=
  (library.services.findIdx? (·.name = name)).bind fun index =>
    library.services[index]?.map fun service => (index, service)

def addModule (library : Library) (decl : ModuleDecl) : Except BuildError Library :=
  if (library.module? decl.name).isSome then .error (.duplicate "module" decl.name)
  else .ok { library with modules := library.modules ++ [decl] }

def addService (library : Library) (service : Service) : Except BuildError Library :=
  if library.services.any (·.name = service.name) then
    .error (.duplicate "service" service.name)
  else .ok { library with services := library.services ++ [service] }

end Library

end Elastic
