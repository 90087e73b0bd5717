import Elastic.Proofs.Sim.Lookups
import Elastic.Proofs.Sim.Safety
import Mathlib.Algebra.Group.Nat.Defs

namespace Elastic

/-! Addresses of memories. Their width is the least, of a bit or more, that tells all words apart.
Where the number of words is a power of two, every address of the width is that of a word, and no
request to the memory is ever out of range. -/

theorem fitsWidth_iff {width : UInt32} {word : UInt64} :
    fitsWidth width word = true ↔ word.toNat < 2 ^ width.toNat := by
  simp only [fitsWidth, Nat.one_shiftLeft, Bool.or_eq_true, decide_eq_true_eq, or_iff_right_iff_imp]
  intro wide
  exact Nat.lt_of_lt_of_le word.toNat_lt (Nat.pow_le_pow_right Nat.two_pos wide)

theorem toNat_addressWidth (depth : UInt32) :
    (addressWidth depth).toNat =
      if depth.toNat ≤ 2 then 1 else (depth.toNat - 1).log2 + 1 := by
  unfold addressWidth
  by_cases few : depth.toNat ≤ 2
  · rw [if_pos few, if_pos (UInt32.le_iff_toNat_le.2 few)]
    rfl
  · have bound := depth.toNat_lt
    have small : (depth.toNat - 1).log2 < 32 := (Nat.log2_lt (by omega)).2 (by omega)
    rw [if_neg few, if_neg (mt UInt32.le_iff_toNat_le.1 few)]
    exact UInt32.toNat_ofNat_of_lt' (by simp only [UInt32.size]; omega)

theorem addressWidth_pos (depth : UInt32) : 0 < addressWidth depth := by
  rw [UInt32.lt_iff_toNat_lt, toNat_addressWidth]
  split
  · decide
  · exact Nat.succ_pos _

theorem toNat_addressWidth_le_iff {depth : UInt32} {width : Nat} (positive : 0 < width) :
    (addressWidth depth).toNat ≤ width ↔ depth.toNat ≤ 2 ^ width := by
  rw [toNat_addressWidth]
  split
  · rename_i few
    have two : 2 ^ 1 ≤ 2 ^ width := Nat.pow_le_pow_right Nat.two_pos positive
    omega
  · rename_i many
    rw [Nat.succ_le_iff, Nat.log2_lt (by omega)]
    omega

theorem fits_addresses_iff {depth width : UInt32} (positive : 0 < width) :
    (∀ address : UInt64, address.toNat < depth.toNat → fitsWidth width address = true) ↔
      addressWidth depth ≤ width := by
  rw [UInt32.le_iff_toNat_le, toNat_addressWidth_le_iff (UInt32.lt_iff_toNat_lt.1 positive)]
  constructor
  · intro fits
    by_contra narrow
    have bound := depth.toNat_lt
    have some := Nat.two_pow_pos width.toNat
    have last : (UInt64.ofNat (depth.toNat - 1)).toNat = depth.toNat - 1 :=
      UInt64.toNat_ofNat_of_lt' (by simp only [UInt64.size]; omega)
    have fit := fitsWidth_iff.1 (fits (.ofNat (depth.toNat - 1)) (by omega))
    omega
  · intro wide address below
    exact fitsWidth_iff.2 (Nat.lt_of_lt_of_le below wide)

theorem toNat_addressWidth_of_power {depth : UInt32} {exponent : Nat} (positive : 1 ≤ exponent)
    (power : depth.toNat = 2 ^ exponent) : (addressWidth depth).toNat = exponent := by
  apply Nat.le_antisymm
  · exact (toNat_addressWidth_le_iff positive).2 (Nat.le_of_eq power)
  · have tells := (toNat_addressWidth_le_iff (UInt32.lt_iff_toNat_lt.1 (addressWidth_pos depth))).1
      (Nat.le_refl _)
    rw [power] at tells
    exact (Nat.pow_le_pow_iff_right (by decide)).1 tells

/-- No address of the width leads beyond a memory whose depth is a power of two. -/
theorem Memory.Beyond.depth_ne {memory : Memory} {address : UInt64}
    (beyond : memory.Beyond .widths address) {exponent : Nat} (positive : 1 ≤ exponent) :
    memory.depth ≠ 2 ^ exponent := by
  intro power
  obtain ⟨outside, depth, deep, fits⟩ := beyond
  have inside := fitsWidth_iff.1 (show fitsWidth (addressWidth depth) address = true from fits)
  rw [toNat_addressWidth_of_power positive (deep.symm.trans power)] at inside
  omega

namespace Simulator

/-- An error of an address out of range names a memory whose depth is no power of two above one. -/
def Oversteps (sim : Simulator) (error : SimError) : Prop :=
  ∀ path address depth, error = .addressOutOfRange path address depth →
    ∃ memory ∈ sim.state.memories, memory.path = path ∧
      ∀ exponent, 1 ≤ exponent → memory.depth ≠ 2 ^ exponent

variable {sim : Simulator}

theorem sorts_oversteps (conforms : sim.net.Conforms .widths sim.state) :
    sim.Sorts .widths sim.Oversteps where
  query meets := by
    refine fails_settle (Query.kept_contract conforms) meets (fun signal => ?_)
      fun error fault => ?_
    · intro path address depth equal
      cases signal <;> cases equal
    · intro path address depth equal
      obtain ⟨_, _, _, _, -, rfl⟩ := fault
      cases equal
  sink site value error member moves failed := by
    intro path address depth equal
    obtain ⟨slot, here⟩ := slot_of_mem_servedRoles member
    obtain ⟨effects, given, -⟩ | ⟨memory, held, beyond, outside, refused⟩ :=
      sinkEffects_cases conforms here (fits_of_transfers conforms here moves)
    · cases failed.symm.trans given
    · cases equal
      cases failed.symm.trans refused
      exact ⟨memory, held, rfl, fun exponent positive => outside.depth_ne positive⟩

variable {design : CompiledDesign} {policy : ArbitrationPolicy} {start : Simulator}

theorem exists_builtin_of_memory (contained : design.SelfContained)
    (made : withPolicy design policy = .ok start) (actions : List Action) {memory : Memory}
    (member : memory ∈ (start.after actions).state.memories) :
    ∃ site ∈ design.services.builtins, memory.path = AppPath.text site.path ∧
      ∃ shape, (design.graph.serviceAt? site.service).bind (·.memory) = some shape ∧
        memory.depth = shape.depth.toNat := by
  have plain : start.net.Plain .widths start.state.frame :=
    ⟨fun _ _ => trivial, fun _ _ _ => trivial, fun _ _ => trivial⟩
  obtain ⟨keeps, -⟩ := keeps_after (conforms_of_withPolicy contained made plain) actions
  obtain ⟨-, entries, memoriesOf, -⟩ := withPolicy_ok made
  obtain ⟨place, found⟩ := List.mem_iff_getElem?.1 member
  have paths := congrArg (·[place]?) (paths_after made actions).1
  have frames := congrArg (fun frame : StateFrame => frame.memories[place]?) keeps.frame
  simp only [SimState.frame, List.getElem?_map, found, Option.map_some] at paths frames
  obtain ⟨first, began, frame⟩ := Option.map_eq_some_iff.1 frames.symm
  obtain ⟨site, stands, path⟩ := Option.map_eq_some_iff.1 paths.symm
  obtain ⟨site', shape, stands', shaped, placed⟩ := memoriesOf.frame place first began
  cases stands.symm.trans stands'
  have deep : first.frame.depth = shape.depth.toNat := congrArg MemoryFrame.depth placed
  rw [frame] at deep
  exact ⟨site, List.mem_of_getElem? stands, path.symm, shape, shaped, deep⟩

theorem nodup_builtinPaths (contained : design.SelfContained) :
    (design.services.builtins.map fun site => AppPath.text site.path).Nodup := by
  cases contained with
  | compile closed composed generated compiled =>
      obtain ⟨rfl, resolved⟩ := CompiledDesign.resolve_of_compile compiled
      have lists := ServiceMap.lists_of_resolve resolved
      exact (Graph.addressed_of_generate generated).nodup_text lists.nodup_builtins
        lists.shows_builtin

/-- The address width of a memory is the least positive width that all its addresses fit. In a
design whose modules use their own values only, no step of any run finds an address out of range for
a memory whose depth is a power of two above one. -/
theorem addresses_stay_in_range (depth : UInt32) :
    (0 < addressWidth depth ∧ ∀ width : UInt32, 0 < width →
      ((∀ address : UInt64, address.toNat < depth.toNat → fitsWidth width address = true) ↔
        addressWidth depth ≤ width)) ∧
    ∀ (design : CompiledDesign) (policy : ArbitrationPolicy) (start : Simulator),
      design.SelfContained → withPolicy design policy = .ok start →
      ∀ (actions : List Action) (site : BuiltinSite) (word : Ty) (exponent : Nat),
        site ∈ design.services.builtins →
        (design.graph.serviceAt? site.service).bind (·.memory) = some ⟨word, depth⟩ →
        1 ≤ exponent → depth.toNat = 2 ^ exponent →
        ∀ address size, (start.after actions).step.1 ≠
          .error (.addressOutOfRange (AppPath.text site.path) address size) := by
  refine ⟨⟨addressWidth_pos depth, fun width => fits_addresses_iff⟩, ?_⟩
  intro design policy start contained made actions site word exponent member shaped positive power
    address size failed
  have plain : start.net.Plain .widths start.state.frame :=
    ⟨fun _ _ => trivial, fun _ _ _ => trivial, fun _ _ => trivial⟩
  obtain ⟨-, conforms⟩ := keeps_after (conforms_of_withPolicy contained made plain) actions
  obtain ⟨memory, held, path, odd⟩ :=
    fails_step conforms (sorts_oversteps conforms) (Prod.ext failed rfl) _ _ _ rfl
  obtain ⟨site', member', path', shape', shaped', deep⟩ :=
    exists_builtin_of_memory contained made actions held
  -- Two builtins of one path are one, so the memory that failed is the one in question.
  obtain rfl : site' = site :=
    List.inj_on_of_nodup_map (nodup_builtinPaths contained) member' member (path'.symm.trans path)
  cases shaped.symm.trans shaped'
  exact odd exponent positive (deep.trans power)

end Simulator

namespace MemoryDesign

def outerReads : List Action :=
  [.hostSend "Top.read" "address" (.bits 7), .hostSend "Top.read" "address" (.bits 0), .step]

theorem outer_reads_stay_in_range :
    ∃ design start site, CompiledDesign.SelfContained design ∧
      Simulator.withPolicy design .roundRobin = .ok start ∧
      site ∈ design.services.builtins ∧
      (design.graph.serviceAt? site.service).bind (·.memory) = some ⟨word, depth⟩ ∧
      1 ≤ 3 ∧ depth.toNat = 2 ^ 3 ∧
      ∀ address size, (start.after outerReads).step.1 ≠
        .error (.addressOutOfRange (AppPath.text site.path) address size) := by
  have closed : hosted.library.Closed := by
    unfold Library.Closed
    decide
  have memory : ((hosted.simulation? "Top").bind fun made =>
      made.1.services.builtins.head?.bind fun site =>
        (made.1.graph.serviceAt? site.service).bind (·.memory)) = some ⟨word, depth⟩ := by
    decide +kernel
  obtain ⟨⟨design, start⟩, simulation, memory⟩ := Option.bind_eq_some_iff.1 memory
  obtain ⟨site, first, memory⟩ := Option.bind_eq_some_iff.1 memory
  obtain ⟨contained, made⟩ := Setting.selfContained_of_simulation closed composed_hosted simulation
  have member := List.mem_of_head? first
  exact ⟨design, start, site, contained, made, member, memory, by decide, by decide,
    (Simulator.addresses_stay_in_range depth).2 design .roundRobin start contained made outerReads
      site word 3 member memory (by decide) (by decide)⟩

end MemoryDesign

end Elastic
