import Elastic.Project.Config

namespace Elastic

structure ResolvedTarget where
  name : String
  backend : BackendPreset
  policy : Option ArbitrationPolicy
  /-- The output directory, from that of the project if it is relative. -/
  output : Path
deriving DecidableEq, Repr, Inhabited

namespace ResolvedTarget

def outputIn (target : ResolvedTarget) (project : Path) : Path :=
  if Path.isAbsolute target.output then target.output else Path.join project target.output

end ResolvedTarget

namespace ProjectConfig

def chosenName (config : ProjectConfig) : Option String → Except ConfigError String
  | some name => .ok name
  | none =>
    match config.targets.map (·.1) with
    | [] =>
      .error (.noSingleTarget "no targets defined in weft.toml; add a [targets.<name>] section")
    | [name] => .ok name
    | names =>
      .error (.noSingleTarget ("multiple targets defined (" ++ ", ".intercalate names ++
        "); use --target to select one"))

/-- The output directory of a target: its own, or one of its name in that of the build. -/
def targetOutput (config : ProjectConfig) (name : String) (target : TargetSettings) : Path :=
  target.output.getD (Path.join config.output name)

def resolveTarget (config : ProjectConfig) (name : Option String) :
    Except ConfigError ResolvedTarget := do
  let name ← config.chosenName name
  match (config.targets.find? (·.1 = name)).map (·.2) with
  | none => .error (.unknownTarget name)
  | some target => .ok ⟨name, target.backend, target.policy, config.targetOutput name target⟩

end ProjectConfig

end Elastic
