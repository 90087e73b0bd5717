import Elastic.Project.Target
import Elastic.Proofs.Disk.Places

namespace Elastic

/-! Where the targets of a project are built. A target without an output directory of its own has
its name for a path from the output directory of the build, whatever the name is. -/

namespace Path

variable {base path whole project : Path} {entry : String}

/-- The whole path leads to an entry of the directory that the base leads to. -/
structure Enters (base : Path) (entry : String) (whole : Path) : Prop where
  solid : isSolid entry = true
  absolute : isAbsolute whole = isAbsolute base
  names : Path.names whole = Path.names base ++ [entry]

theorem Enters.place (enters : Enters base entry whole) (current : Location) :
    Path.place current whole = Path.place current base ++ [entry] := by
  rw [Path.place, Path.place, enters.absolute, enters.names, List.append_assoc]

theorem Enters.place_eq_iff {other : String} {whole' : Path} (enters : Enters base entry whole)
    (enters' : Enters base other whole') (current : Location) :
    Path.place current whole = Path.place current whole' ↔ entry = other := by
  rw [enters.place, enters'.place, List.append_cancel_left_eq, List.singleton_inj]

/-- The whole path enters the base just if the path is one name of an entry, but for idle
segments. -/
def EntersBy (base path whole : Path) : Prop :=
  ∀ entry, Enters base entry whole ↔ isSolid entry = true ∧ names path = [entry]

theorem entersBy_of_names (absolute : isAbsolute whole = isAbsolute base)
    (follows : names whole = names base ++ names path) : EntersBy base path whole := by
  intro entry
  constructor
  · intro enters
    exact ⟨enters.solid, List.append_cancel_left (follows.symm.trans enters.names)⟩
  · rintro ⟨solid, only⟩
    exact ⟨solid, absolute, only ▸ follows⟩

theorem entersBy_join (named : base ≠ "") (relative : isAbsolute path = false) :
    EntersBy base path (join base path) :=
  entersBy_of_names (isAbsolute_join named relative) (names_join relative)

theorem isAbsolute_join_of_named (named : base ≠ "") (relative : isAbsolute path = false) :
    isAbsolute (join project (join base path)) = isAbsolute (join project base) := by
  cases rooted : isAbsolute base with
  | true =>
      have rooted' := (isAbsolute_join named relative).trans rooted
      rw [join_absolute rooted', join_absolute rooted, rooted', rooted]
  | false =>
      have level := (isAbsolute_join named relative).trans rooted
      by_cases empty : project = ""
      · rw [empty, join_empty level, join_empty rooted, level, rooted]
      · rw [isAbsolute_join empty level, isAbsolute_join empty rooted]

theorem names_join_join (named : base ≠ "") (relative : isAbsolute path = false) :
    names (join project (join base path)) = names (join project base) ++ names path := by
  cases rooted : isAbsolute base with
  | true =>
      have rooted' := (isAbsolute_join named relative).trans rooted
      rw [join_absolute rooted', join_absolute rooted, names_join relative]
  | false =>
      have level := (isAbsolute_join named relative).trans rooted
      rw [names_join level, names_join rooted, names_join relative, List.append_assoc]

theorem entersBy_join_join (named : base ≠ "") (relative : isAbsolute path = false) :
    EntersBy (join project base) path (join project (join base path)) :=
  entersBy_of_names (isAbsolute_join_of_named named relative) (names_join_join named relative)

/-- The path is the name of an entry and nothing more. -/
structure IsPlain (path : Path) : Prop where
  solid : isSolid path = true
  unbroken : '/' ∉ path.toList

instance (path : Path) : Decidable (IsPlain path) :=
  decidable_of_iff (isSolid path = true ∧ '/' ∉ path.toList)
    ⟨fun both => ⟨both.1, both.2⟩, fun plain => ⟨plain.1, plain.2⟩⟩

theorem IsPlain.segments (plain : IsPlain path) : Path.segments path = [path] := by
  rw [Path.segments, segmentsOf_plain plain.unbroken, List.map_singleton, String.ofList_toList]

theorem IsPlain.relative (plain : IsPlain path) : isAbsolute path = false := by
  apply isAbsolute_of_solid
  rw [plain.segments]
  exact List.forall_mem_singleton.2 plain.solid

theorem IsPlain.names (plain : IsPlain path) : Path.names path = [path] := by
  rw [Path.names, plain.segments]
  exact List.filter_eq_self.2 (List.forall_mem_singleton.2 (Bool.and_eq_true _ _ ▸ plain.solid).1)

end Path

namespace ResolvedTarget

theorem outputIn_eq_join (target : ResolvedTarget) (project : Path) :
    target.outputIn project = Path.join project target.output := by
  unfold outputIn
  split
  · rename_i absolute
    exact (Path.join_absolute absolute).symm
  · rfl

end ResolvedTarget

namespace ProjectConfig

variable {text : String} {config : ProjectConfig}

/-- A target that does not say where it is built. -/
def Unplaced (config : ProjectConfig) (name : String) : Prop :=
  ∃ target, config.targets.find? (·.1 = name) = some (name, target) ∧ target.output = none

theorem validate_eq_ok_iff : validate config = .ok () ↔
    config.system.name ≠ "" ∧ config.system.design ≠ "" ∧
      config.system.name.toList.all isNameChar = true ∧ config.output ≠ "" ∧
      config.maxCycles ≠ 0 := by
  unfold validate
  split_ifs <;> simp_all [-List.all_eq_true, -List.all_eq_false]

theorem validate_of_text (accepted : ofText text = .ok config) : validate config = .ok () := by
  unfold ofText at accepted
  split at accepted
  · cases accepted
  · split at accepted
    · cases accepted
    · rename_i held _
      cases valid : validate held with
      | error error =>
          rw [valid] at accepted
          cases accepted
      | ok _ =>
          rw [valid] at accepted
          cases accepted
          exact valid

theorem resolveTarget_of_unplaced {name : String} {asked : Option String}
    (unplaced : config.Unplaced name) (chosen : config.chosenName asked = .ok name) :
    ∃ resolved, config.resolveTarget asked = .ok resolved ∧ resolved.name = name ∧
      resolved.output = Path.join config.output name := by
  obtain ⟨target, found, own⟩ := unplaced
  refine ⟨⟨name, target.backend, target.policy, config.targetOutput name target⟩, ?_, rfl, ?_⟩
  · rw [resolveTarget, chosen]
    simp only [bind, Except.bind, found, Option.map_some]
  · rw [targetOutput, own]
    rfl

/-- A target without an output directory of its own is built at its name, taken as a path: at the
name itself if that is absolute, and else in an entry of the output directory just if the name is
that of one entry. Plain names are, and no two targets of plain names have one directory. -/
theorem targets_are_built_at_names (accepted : ofText text = .ok config) (project : Path) :
    (∀ name asked, config.Unplaced name → config.chosenName asked = .ok name →
      ∃ resolved, config.resolveTarget asked = .ok resolved ∧ resolved.name = name ∧
        resolved.output = Path.join config.output name ∧
        (Path.isAbsolute name = true →
          resolved.output = name ∧ resolved.outputIn project = name) ∧
        (Path.isAbsolute name = false → Path.EntersBy config.output name resolved.output ∧
          Path.EntersBy (Path.join project config.output) name (resolved.outputIn project))) ∧
    ∀ name other resolved resolved', config.Unplaced name → config.Unplaced other →
      Path.IsPlain name → Path.IsPlain other →
      config.resolveTarget (some name) = .ok resolved →
      config.resolveTarget (some other) = .ok resolved' →
      Path.Enters config.output name resolved.output ∧
        Path.Enters (Path.join project config.output) name (resolved.outputIn project) ∧
        ∀ current,
          (resolved.output.place current = resolved'.output.place current ↔ name = other) ∧
          ((resolved.outputIn project).place current = (resolved'.outputIn project).place current ↔
            name = other) := by
  obtain ⟨-, -, -, named, -⟩ := validate_eq_ok_iff.1 (validate_of_text accepted)
  constructor
  · intro name asked unplaced chosen
    obtain ⟨resolved, found, same, output⟩ := resolveTarget_of_unplaced unplaced chosen
    refine ⟨resolved, found, same, output, fun absolute => ?_, fun relative => ?_⟩
    · rw [resolved.outputIn_eq_join, output, Path.join_absolute absolute,
        Path.join_absolute absolute]
      exact ⟨rfl, rfl⟩
    · rw [resolved.outputIn_eq_join, output]
      exact ⟨Path.entersBy_join named relative, Path.entersBy_join_join named relative⟩
  have enters {name : String} {resolved : ResolvedTarget} (unplaced : config.Unplaced name)
      (plain : Path.IsPlain name) (found : config.resolveTarget (some name) = .ok resolved) :
      Path.Enters config.output name resolved.output ∧
        Path.Enters (Path.join project config.output) name (resolved.outputIn project) := by
    have chosen : config.chosenName (some name) = .ok name := rfl
    obtain ⟨_, found', -, output⟩ := resolveTarget_of_unplaced unplaced chosen
    cases found'.symm.trans found
    rw [resolved.outputIn_eq_join, output]
    exact ⟨(Path.entersBy_join named plain.relative name).2 ⟨plain.solid, plain.names⟩,
      (Path.entersBy_join_join named plain.relative name).2 ⟨plain.solid, plain.names⟩⟩
  intro name other resolved resolved' unplaced unplaced' plain plain' found found'
  obtain ⟨first, second⟩ := enters unplaced plain found
  obtain ⟨first', second'⟩ := enters unplaced' plain' found'
  refine ⟨first, second, fun current => ⟨first.place_eq_iff first' current,
    second.place_eq_iff second' current⟩⟩

/-- A project with a plain target name, and with names that lead elsewhere. -/
def straying : String := "[system]\nname = \"S\"\ndesign = \"d\"\n[targets.cosim]
backend = \"cosim\"\n[targets.\"/abs\"]\nbackend = \"cosim\"\n[targets.\"..\"]
backend = \"cosim\"\n"

theorem straying_targets : ∃ config, ofText straying = .ok config ∧ config.output = "build" ∧
    (∃ resolved, config.resolveTarget (some "cosim") = .ok resolved ∧
      Path.Enters "build" "cosim" resolved.output) ∧
    (∃ resolved, config.resolveTarget (some "/abs") = .ok resolved ∧
      resolved.outputIn "/project" = "/abs") ∧
    ∃ resolved, config.resolveTarget (some "..") = .ok resolved ∧
      resolved.output = "build/.." ∧ ∀ entry, ¬ Path.Enters "build" entry resolved.output := by
  have facts : (ofText straying).toOption.map (fun config => (config.output, config.targets)) =
      some ("build", ["..", "/abs", "cosim"].map fun name => (name, ⟨.cosim, none, none⟩)) := by
    decide +kernel
  cases accepted : ofText straying with
  | error error =>
      rw [accepted] at facts
      cases facts
  | ok config =>
      rw [accepted] at facts
      have output : config.output = "build" := congrArg Prod.fst (Option.some.inj facts)
      have targets : config.targets = _ := congrArg Prod.snd (Option.some.inj facts)
      have known : ∀ name ∈ ["..", "/abs", "cosim"], config.targets.find? (·.1 = name) =
          some (name, ⟨.cosim, none, none⟩) := by
        rw [targets]
        decide
      have unplaced (name : String) (listed : name ∈ ["..", "/abs", "cosim"]) :
          config.Unplaced name := ⟨_, known name listed, rfl⟩
      obtain ⟨places, -⟩ := targets_are_built_at_names accepted "/project"
      rw [output] at places
      obtain ⟨plain, found, -, -, -, enters⟩ :=
        places "cosim" (some "cosim") (unplaced "cosim" (by decide)) rfl
      obtain ⟨absolute, found', -, -, replaces, -⟩ :=
        places "/abs" (some "/abs") (unplaced "/abs" (by decide)) rfl
      obtain ⟨upward, found'', -, joined, -, enters'⟩ :=
        places ".." (some "..") (unplaced ".." (by decide)) rfl
      refine ⟨config, rfl, output, ⟨plain, found, ?_⟩, ⟨absolute, found', ?_⟩, upward, found'',
        ?_, fun entry => ?_⟩
      · exact ((enters (by decide +kernel)).1 "cosim").2 (by decide +kernel)
      · exact (replaces (by decide +kernel)).2
      · rw [joined]
        decide +kernel
      · rw [(enters' (by decide +kernel)).1 entry]
        rintro ⟨solid, only⟩
        have same : [".."] = [entry] := .trans (by decide +kernel) only
        cases same
        exact absurd solid (by decide +kernel)

end ProjectConfig

end Elastic
