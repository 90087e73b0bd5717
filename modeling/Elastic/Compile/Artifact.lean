import Elastic.Text.Markup
import Elastic.Compile.Manifest
import Elastic.Disk.Basic

namespace Elastic

structure Artifact where
  path : String
  contents : ByteArray
deriving DecidableEq, Inhabited

def hostSends (side : ServiceSide) (flow : Flow) : Bool :=
  match side with
  | .client => flow = .toService
  | .server => flow = .fromService

namespace Artifact

open Text

def ofText (path text : String) : Artifact := ⟨path, text.toUTF8⟩

@[simp] theorem path_ofText (path text : String) : (ofText path text).path = path := rfl

def text? (artifact : Artifact) : Option String := String.fromUTF8? artifact.contents

@[simp] theorem text?_ofText (path text : String) : (ofText path text).text? = some text :=
  dif_pos text.isValidUTF8

def shared (name : String) (graph : Graph) (manifest : Manifest) : List Artifact :=
  [ofText "esi_system_manifest.json" manifest.text,
    ofText ("hw/" ++ name ++ ".weft.json") graph.toJson.pretty]

def channelJson (side : ServiceSide) (role : Role) : Json :=
  .obj [
    ("name", .str role.name),
    ("direction", .str (if hostSends side role.flow then "send" else "recv")),
    ("type", .str role.payload.text)]

/-- A host endpoint with the channels of its operation, looked up by name. -/
def endpointJson (graph : Graph) (host : HostEndpoint) : Except BuildError Json :=
  match graph.services.find? (·.name = host.service) with
  | none => .error (.internal ("no service '" ++ host.service ++ "'"))
  | some service =>
    match service.operation? host.operation with
    | none => .error (.internal
        ("service '" ++ host.service ++ "' has no operation '" ++ host.operation ++ "'"))
    | some operation =>
      .ok <| .obj [
        ("path", .str (AppPath.text host.path)),
        ("service", .str host.service),
        ("operation", .str host.operation),
        ("role", host.side.toJson),
        ("channels", Json.list (channelJson host.side) operation.bundle)]

def endpointsJson (graph : Graph) : List HostEndpoint → Except BuildError (List Json)
  | [] => .ok []
  | host :: rest => do
    let first ← endpointJson graph host
    let others ← endpointsJson graph rest
    return first :: others

def endpointTable (name : String) (endpoints : List Json) : String :=
  (Json.obj [("system", .str name), ("endpoints", .arr endpoints)]).pretty

def attr (name value : String) : String :=
  " " ++ name ++ "=\"" ++ markup value ++ "\""

/-- The word width and the depth of a builtin, zero where it has none. -/
def memorySize (graph : Graph) (site : BuiltinSite) : Nat × Nat :=
  match (graph.serviceAt? site.service).bind (·.memory) with
  | none => (0, 0)
  | some shape => (((shape.word.width?).getD 0).toNat, shape.depth.toNat)

def memoryElement (graph : Graph) (site : BuiltinSite) : String :=
  let (width, depth) := memorySize graph site
  "      <memory" ++ attr "path" (AppPath.text site.path) ++
    attr "service" site.serviceName ++ attr "impl" site.tag ++
    attr "dataWidth" (toString width) ++ attr "depth" (toString depth) ++
    attr "clients" (toString site.clients.length) ++ "/>\n"

def kernelDescription (name : String) (policy : ArbitrationPolicy) (fingerprint : String)
    (graph : Graph) (builtins : List BuiltinSite) : String :=
  "<?xml version=\"1.0\" encoding=\"UTF-8\"?>\n" ++
    "<root versionMajor=\"1\" versionMinor=\"6\">\n" ++
    "  <kernel" ++ attr "name" name ++ attr "language" "ip_c" ++
    attr "arbitration" policy.text ++ attr "fingerprint" fingerprint ++ ">\n" ++
    "    <ports>\n" ++
    "      <port name=\"s_axi_control\" mode=\"slave\" range=\"0x10000\" dataWidth=\"32\"" ++
    " portType=\"addressable\" base=\"0x0\"/>\n" ++
    "    </ports>\n" ++
    "    <memories>\n" ++
    String.join (builtins.map (memoryElement graph)) ++
    "    </memories>\n" ++
    "  </kernel>\n" ++
    "</root>\n"

def runtimeSettings (name : String) : String :=
  "# Runtime settings for " ++ name ++
    "\n[Runtime]\nruntime_log=console\n\n[Debug]\nnative_xrt_trace=false\n"

def lower (preset : BackendPreset) (name : String) (policy : ArbitrationPolicy) (graph : Graph)
    (map : ServiceMap) (manifest : Manifest) : Except BuildError (List Artifact) :=
  match preset with
  | .cosim => do
    let endpoints ← endpointsJson graph map.hosts
    return shared name graph manifest ++
      [ofText "cosim/endpoints.json" (endpointTable name endpoints)]
  | .xrt =>
    .ok (shared name graph manifest ++
      [ofText "xrt/kernel.xml"
          (kernelDescription name policy manifest.fingerprint graph map.builtins),
        ofText "xrt/xrt.ini" (runtimeSettings name)])

end Artifact

end Elastic
