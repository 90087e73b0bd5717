import Elastic.Compile.Artifact

namespace Elastic

structure CompiledDesign where
  name : String
  version : String
  graph : Graph
  names : Names
  services : ServiceMap
  manifest : Manifest
  artifacts : List Artifact
  backend : BackendPreset
  policy : ArbitrationPolicy
  fingerprint : ContentHash

namespace CompiledDesign

def artifact? (design : CompiledDesign) (path : String) : Option Artifact :=
  design.artifacts.find? (·.path = path)

def idleWarnings (map : ServiceMap) : List Diagnostic :=
  map.idleBuiltins.map fun site => .idleBuiltin (AppPath.text site.path) site.tag

def ofResolved (name version : String) (graph : Graph) (names : Names) (backend : BackendPreset)
    (policy : ArbitrationPolicy) (map : ServiceMap) : Except BuildError CompiledDesign := do
  let fingerprint := graph.fingerprint
  let manifest := Manifest.collect name version backend policy fingerprint graph names map
  let artifacts ← Artifact.lower backend name policy graph map manifest
  return ⟨name, version, graph, names, map, manifest, artifacts, backend, policy, fingerprint⟩

/-- Compiles a graph for a backend with the given capabilities. Warnings stand even if a later step
fails. -/
def compile (name version : String) (graph : Graph) (names : Names) (backend : BackendPreset)
    (capabilities : Capabilities) (policy : ArbitrationPolicy) :
    Except BuildError CompiledDesign × List Diagnostic :=
  match graph.validate names backend capabilities with
  | (.error error, warnings) => (.error error, warnings)
  | (.ok (), warnings) =>
    match ServiceMap.resolve graph names with
    | .error error => (.error error, warnings)
    | .ok map =>
      (ofResolved name version graph names backend policy map, warnings ++ idleWarnings map)

end CompiledDesign

end Elastic
