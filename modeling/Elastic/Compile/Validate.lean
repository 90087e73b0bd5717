import Elastic.Backend
import Elastic.Build.Error
import Elastic.Graph.Basic

namespace Elastic

/-! Checks of a finished graph. What only a finished module can show is checked here: bundles with
an end missing, and channels that nobody consumes. -/

namespace Graph

def checkAppIds (module : String) : List AppId → List AppId → Except BuildError Unit
  | [], _ => .ok ()
  | appId :: rest, seen =>
    if !appId.isWellFormed then .error (.invalidAppId module appId.text)
    else if seen.contains appId then .error (.duplicateAppId module appId.text)
    else checkAppIds module rest (appId :: seen)

def checkBundles (module : String) : List Bundle → Except BuildError Unit
  | [] => .ok ()
  | bundle :: rest =>
    if !bundle.client.isBound then .error (.unservicedBundle module "client")
    else if !bundle.server.isBound then .error (.unservicedBundle module "server")
    else checkBundles module rest

def missingService (index : Nat) : BuildError :=
  .internal ("no service #" ++ toString index)

def checkServices (graph : Graph) (preset : BackendPreset) (capabilities : Capabilities)
    (module : String) : List ServiceInstance → Except BuildError Unit
  | [] => .ok ()
  | held :: rest =>
    match graph.serviceAt? held.service with
    | none => .error (missingService held.service)
    | some service =>
      if service.provider = .host ∧ !capabilities.hostChannels then
        .error (.hostChannelsUnsupported preset.text module service.name)
      else checkServices graph preset capabilities module rest

def checkBuiltins (names : Names) (preset : BackendPreset) (capabilities : Capabilities)
    (module : String) : List Builtin → Except BuildError Unit
  | [] => .ok ()
  | builtin :: rest =>
    let tag := names.text builtin.tag
    if !capabilities.supports tag then .error (.unsupportedBuiltin preset.text module tag)
    else checkBuiltins names preset capabilities module rest

def checkModule (graph : Graph) (names : Names) (preset : BackendPreset)
    (capabilities : Capabilities) (module : Module) : Except BuildError Unit := do
  let name := names.text module.name
  checkAppIds name module.appIds []
  checkBundles name module.bundles.toList
  checkServices graph preset capabilities name module.services.toList
  checkBuiltins names preset capabilities name module.builtins

def danglingWarnings (graph : Graph) (names : Names) (module : Module) : List Diagnostic :=
  module.danglingChannels.map fun (_, channel) =>
    .danglingChannel (names.text module.name) (graph.types.get channel.payload).text

def checkModules (graph : Graph) (names : Names) (preset : BackendPreset)
    (capabilities : Capabilities) : List Module → Except BuildError Unit × List Diagnostic
  | [] => (.ok (), [])
  | module :: rest =>
    match graph.checkModule names preset capabilities module with
    | .error error => (.error error, [])
    | .ok () =>
      let (outcome, warnings) := checkModules graph names preset capabilities rest
      (outcome, graph.danglingWarnings names module ++ warnings)

def validate (graph : Graph) (names : Names) (preset : BackendPreset)
    (capabilities : Capabilities) : Except BuildError Unit × List Diagnostic :=
  graph.checkModules names preset capabilities graph.modules.toList

end Graph

end Elastic
