import Elastic.Proofs.Compile.Kernel
import Elastic.Proofs.Ty.Flatness

namespace Elastic

/-! The width of a type is the number of its wires, counted in 32 bits: of a type with more wires
than that only the remainder is left, and it is this that a kernel's description gives. -/

namespace Ty

mutual
/-- The number of wires of the leaves of a type. -/
def wires : Ty → Nat
  | .clock => 1
  | .bits width => width.toNat
  | .struct fields => fieldsWires fields
  | .channel _ | .bundle _ => 0
termination_by structural ty => ty

def fieldsWires : List (String × Ty) → Nat
  | [] => 0
  | (_, ty) :: rest => wires ty + fieldsWires rest
termination_by structural fields => fields
end

mutual
theorem width?_eq : (ty : Ty) →
    ty.width? = if ty.isFlat then some (UInt32.ofNat ty.wires) else none
  | .clock => rfl
  | .bits width => congrArg some UInt32.ofNat_toNat.symm
  | .struct fields => by
    have counted := fieldsWidth?_eq fields 0
    rwa [UInt32.zero_add] at counted
  | .channel _ | .bundle _ => rfl
termination_by structural ty => ty

theorem fieldsWidth?_eq : (fields : List (String × Ty)) → (sum : UInt32) →
    fieldsWidth? sum fields =
      if flatFields fields then some (sum + UInt32.ofNat (fieldsWires fields)) else none
  | [], sum => congrArg some (UInt32.add_zero sum).symm
  | (_, ty) :: rest, sum => by
    unfold fieldsWidth? flatFields fieldsWires
    rw [width?_eq ty]
    by_cases flat : ty.isFlat = true
    · rw [if_pos flat, flat, Bool.true_and, UInt32.ofNat_add, ← UInt32.add_assoc]
      exact fieldsWidth?_eq rest _
    · rw [if_neg flat, eq_false_of_ne_true flat]
      rfl
termination_by structural fields => fields
end

/-- The width of a type that has one is the remainder of the number of its wires. -/
theorem toNat_of_width? {ty : Ty} {width : UInt32} (known : ty.width? = some width) :
    width.toNat = ty.wires % UInt32.size := by
  rw [width?_eq] at known
  split at known
  · cases known
    exact UInt32.toNat_ofNat'
  · cases known

end Ty

def Graph.wordTy? (graph : Graph) (site : BuiltinSite) : Option Ty :=
  ((graph.serviceAt? site.service).bind (·.memory)).map (·.word)

theorem Artifact.memorySize_eq {graph : Graph} {site : BuiltinSite} {ty : Ty}
    (known : graph.wordTy? site = some ty) :
    (Artifact.memorySize graph site).1 = if ty.isFlat then ty.wires % UInt32.size else 0 := by
  obtain ⟨shape, memory, rfl⟩ := Option.map_eq_some_iff.1 known
  simp only [memorySize, memory, Ty.width?_eq]
  split
  · exact UInt32.toNat_ofNat'
  · rfl

open Text in
/-- A type has a width if and only if no channel or bundle is in it, and the width is the number of
wires of its leaves if that is below 2^32, and its remainder otherwise. The description of a kernel
gives this number as the width of each memory with words of the type. -/
theorem Ty.widths_count_wires (ty : Ty) :
    (ty.width?.isSome = ty.isFlat ∧ ∀ width, ty.width? = some width →
      width.toNat = ty.wires % UInt32.size ∧ (width.toNat = ty.wires ↔ ty.wires < UInt32.size)) ∧
    ∀ name version graph names capabilities policy design warnings,
      CompiledDesign.compile name version graph names .xrt capabilities policy =
        (.ok design, warnings) →
      ∃ artifact tags, design.artifact? "xrt/kernel.xml" = some artifact ∧
        artifact.text?.bind Tag.tags? = some tags ∧
        ∀ (index : Nat) site, design.services.builtins[index]? = some site →
          graph.wordTy? site = some ty →
          ((tags.filter (·.name = "memory"))[index]?).bind (·.value? "dataWidth") =
            some (toString (if ty.isFlat then ty.wires % UInt32.size else 0)) := by
  refine ⟨⟨isSome_width? ty, fun width known => ?_⟩, ?_⟩
  · have remainder := toNat_of_width? known
    refine ⟨remainder, fun exact => ?_, fun small => ?_⟩
    · exact exact ▸ width.toNat_lt
    · rw [remainder, Nat.mod_eq_of_lt small]
  · intro name version graph names capabilities policy design warnings compiled
    obtain ⟨artifact, present, text⟩ := CompiledDesign.kernel_of_compile compiled
    have read := Artifact.tags?_kernelDescription name policy design.manifest.fingerprint graph
      design.services.builtins
    refine ⟨artifact, _, present, Option.bind_eq_some_iff.2 ⟨_, text, read⟩,
      fun index site listed known => ?_⟩
    rw [Artifact.filter_memory, List.getElem?_map, listed, ← Artifact.memorySize_eq known]
    rfl

/-- A structure of two more wires than 32 bits can count is described as one of two wires. -/
theorem wide_words_are_described :
    let wide : Ty := .struct [("low", .bits 4294967295), ("high", .struct [("top", .bits 3)])]
    (wide.wires = UInt32.size + 2 ∧ wide.width?.isSome = true ∧
      ∀ width, wide.width? = some width → width.toNat = 2) ∧
    ∃ graph design warnings artifact tags,
      CompiledDesign.compile "\"><kernel" "1.0" graph
        (generate (MarkedDesign.setting wide) "Top").names .xrt BackendPreset.xrt.capabilities
        .fixedPriority = (.ok design, warnings) ∧
      design.artifact? "xrt/kernel.xml" = some artifact ∧
      artifact.text?.bind Text.Tag.tags? = some tags ∧
      ((tags.filter (·.name = "memory"))[0]?).bind (·.value? "dataWidth") = some "2" := by
  intro wide
  obtain ⟨⟨flat, widths⟩, kernels⟩ := Ty.widths_count_wires wide
  have wires : wide.wires = UInt32.size + 2 := by decide
  have remainder : wide.wires % UInt32.size = 2 := by decide
  have isFlat : wide.isFlat = true := by decide
  refine ⟨⟨wires, flat.trans isFlat, fun width known => ?_⟩, ?_⟩
  · exact (widths width known).1.trans remainder
  have facts : ((MarkedDesign.compile? wide).map fun made =>
      made.2.services.builtins.map fun site => made.1.wordTy? site) = some [some wide] := by
    decide +kernel
  obtain ⟨⟨graph, design⟩, made, facts⟩ := Option.map_eq_some_iff.1 facts
  obtain ⟨site, hostSilent, known⟩ := List.map_eq_singleton_iff.1 facts
  obtain ⟨warnings, compiled⟩ := MarkedDesign.compiled_of_compile? made
  obtain ⟨artifact, tags, present, read, described⟩ := kernels _ _ _ _ _ _ _ _ compiled
  refine ⟨graph, design, warnings, artifact, tags, compiled, present, read, ?_⟩
  rw [described 0 site (hostSilent ▸ rfl) known, if_pos isFlat, remainder]
  decide

end Elastic
