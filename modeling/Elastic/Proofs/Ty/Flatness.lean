import Elastic.Proofs.Build.Checks
import Elastic.Proofs.Sim.TypeSoundness

namespace Elastic

/-! Which types have a flat form. The types of ports and payloads are accepted by their outermost
constructor; the flat form is decided by what is inside. -/

namespace Ty

mutual
def isClockFree : Ty → Bool
  | .clock => false
  | .bits _ => true
  | .struct fields => fieldsClockFree fields
  | .channel payload => isClockFree payload
  | .bundle roles => rolesClockFree roles
termination_by structural ty => ty

def fieldsClockFree : List (String × Ty) → Bool
  | [] => true
  | (_, ty) :: rest => isClockFree ty && fieldsClockFree rest
termination_by structural fields => fields

def rolesClockFree : List (RoleOf Ty) → Bool
  | [] => true
  | ⟨_, _, payload⟩ :: rest => isClockFree payload && rolesClockFree rest
termination_by structural roles => roles
end

mutual
/-- Whether a type is made of bits and structures only, at any depth. -/
def isData : Ty → Bool
  | .bits _ => true
  | .struct fields => dataFields fields
  | .clock | .channel _ | .bundle _ => false
termination_by structural ty => ty

def dataFields : List (String × Ty) → Bool
  | [] => true
  | (_, ty) :: rest => isData ty && dataFields rest
termination_by structural fields => fields
end

/-- A type of wires: no channels or bundles at any depth, no clock but as the whole type, a width,
and a value of all zeros. -/
structure HasFlatForm (ty : Ty) : Prop where
  flat : ty.isFlat = true
  clock : ty = .clock ∨ ty.isClockFree = true
  width : ty.width?.isSome = true
  zero : (SimValue.zero ty).conforms ty = true

mutual
theorem isSome_width? : (ty : Ty) → ty.width?.isSome = ty.isFlat
  | .clock | .bits _ | .channel _ | .bundle _ => rfl
  | .struct fields => isSome_fieldsWidth? fields 0
termination_by structural ty => ty

theorem isSome_fieldsWidth? : (fields : List (String × Ty)) → (sum : UInt32) →
    (fieldsWidth? sum fields).isSome = flatFields fields
  | [], _ => rfl
  | (_, ty) :: rest, sum => by
    have first := isSome_width? ty
    unfold fieldsWidth? flatFields
    cases width : ty.width? with
    | none =>
        rw [width] at first
        rw [← first]
        rfl
    | some width' =>
        rw [width] at first
        rw [← first, Option.isSome_some, Bool.true_and]
        exact isSome_fieldsWidth? rest (sum + width')
termination_by structural fields => fields
end

mutual
theorem isData_eq : (ty : Ty) → ty.isData = (ty.isFlat && ty.isClockFree)
  | .clock | .bits _ | .channel _ | .bundle _ => rfl
  | .struct fields => dataFields_eq fields
termination_by structural ty => ty

theorem dataFields_eq : (fields : List (String × Ty)) →
    dataFields fields = (flatFields fields && fieldsClockFree fields)
  | [] => rfl
  | (_, ty) :: rest => by
    unfold dataFields flatFields fieldsClockFree
    rw [isData_eq ty, dataFields_eq rest]
    simp only [Bool.and_assoc, Bool.and_left_comm]
termination_by structural fields => fields
end

end Ty

namespace SimValue

mutual
theorem conforms_zero_eq : (ty : Ty) → (zero ty).conforms ty = ty.isFlat
  | .clock | .channel _ | .bundle _ => rfl
  | .bits width => fitsWidth_zero width
  | .struct fields => conformFields_zero_eq fields
termination_by structural ty => ty

theorem conformFields_zero_eq : (fields : List (String × Ty)) →
    conformFields (zeroFields fields) fields = Ty.flatFields fields
  | [] => rfl
  | (_, ty) :: rest => congrArg₂ (· && ·) (conforms_zero_eq ty) (conformFields_zero_eq rest)
termination_by structural fields => fields
end

end SimValue

namespace Ty

theorem hasFlatForm_iff {ty : Ty} : ty.HasFlatForm ↔ ty = .clock ∨ ty.isData = true := by
  constructor
  · intro form
    refine form.clock.imp_right fun free => ?_
    rw [isData_eq, form.flat, free]
    rfl
  · intro accepted
    rcases accepted with rfl | data
    · exact ⟨rfl, .inl rfl, rfl, rfl⟩
    · rw [isData_eq, Bool.and_eq_true] at data
      obtain ⟨flat, free⟩ := data
      exact ⟨flat, .inr free, (isSome_width? ty).trans flat,
        (SimValue.conforms_zero_eq ty).trans flat⟩

def isPortType (ty : Ty) : Bool := ty = .clock || ty.isPayload

theorem isPayload_of_isData {ty : Ty} (data : ty.isData = true) : ty.isPayload = true := by
  cases ty with
  | bits | struct => rfl
  | clock | channel | bundle => cases data

theorem HasFlatForm.isPortType {ty : Ty} (form : ty.HasFlatForm) : ty.isPortType = true := by
  rcases hasFlatForm_iff.1 form with rfl | data
  · rfl
  · simp [Ty.isPortType, isPayload_of_isData data]

/-- Of the payloads the types of data have a flat form. -/
theorem hasFlatForm_iff_of_isPayload {ty : Ty} (payload : ty.isPayload = true) :
    ty.HasFlatForm ↔ ty.isData = true := by
  rw [hasFlatForm_iff]
  constructor
  · rintro (rfl | data)
    · cases payload
    · exact data
  · exact .inr

end Ty

/-- Ports are declared if all their types are accepted; otherwise the error is about the first that
is not. -/
theorem Elaboration.checks_declarePorts (module : String) (ports : List (String × Ty))
    (shared : Elaboration) :
    Ends (declarePorts module ports) shared (fun _ _ => ∀ port ∈ ports, port.2.isPortType = true)
      fun error _ => ∃ name ty, ports.find? (fun port => !port.2.isPortType) = some (name, ty) ∧
        error = .typeMismatch module ("port '" ++ name ++ "'") "clock, bits or struct" ty.text := by
  induction ports generalizing shared with
  | nil => exact Ends.pure_iff.2 nofun
  | cons port rest induction =>
      obtain ⟨name, ty⟩ := port
      unfold declarePorts
      refine Ends.ite (fun refused => Ends.throw_bind ?_) fun accepted => ?_
      · refine ⟨name, ty, List.find?_cons_of_pos ?_, rfl⟩
        simpa [Ty.isPortType] using refused
      · replace accepted : ty.isPortType = true := by
          by_contra refused
          exact accepted (by simpa [Ty.isPortType] using refused)
        refine Ends.bind_iff.2 (Ends.modifyGet_iff.2 ?_)
        refine Ends.bind (induction _) (fun declared after others => ?_) fun error after fails => ?_
        · exact Ends.pure_iff.2 (List.forall_mem_cons.2 ⟨accepted, others⟩)
        · simpa [accepted] using fails

/-- A channel is wrapped only if its payload is accepted; otherwise nothing is done. -/
theorem Construction.checks_wrap (payload : Ty) (value valid : Value) (builder : Builder) :
    Ends (wrap payload value valid) builder (fun _ _ => payload.isPayload = true)
      fun error after => payload.isPayload = false →
        error = .typeMismatch builder.name "channel payload" "bits or struct" payload.text ∧
          after = builder := by
  unfold wrap
  refine Ends.ite (fun refused => ?_) fun accepted => ?_
  · exact Ends.bind_iff.2 (moduleName_bind (Ends.throw_iff.2 fun _ => ⟨rfl, rfl⟩))
  · replace accepted : payload.isPayload = true := by simpa using accepted
    refine (Ends.any _ _).mono (fun _ _ _ => accepted) fun _ _ _ refused => ?_
    cases accepted.symm.trans refused

/-- Of the types that are accepted for ports and for payloads those have a flat form whose fields
are data at every depth; no type with a flat form is refused for a port, and no data for a
payload. -/
theorem accepted_types_flat_iff (ty : Ty) :
    (ty.width?.isSome = ty.isFlat ∧ (SimValue.zero ty).conforms ty = ty.isFlat) ∧
    (∀ (module : String) (ports : List (String × Ty)) (shared : Elaboration),
      Ends (Elaboration.declarePorts module ports) shared
        (fun _ _ => ∀ name, (name, ty) ∈ ports → ty.isPortType = true ∧
          (ty.HasFlatForm ↔ ty = .clock ∨ ty.isData = true))
        fun error _ => ∃ name refused, (name, refused) ∈ ports ∧ ¬ refused.HasFlatForm ∧
          ports.find? (fun port => !port.2.isPortType) = some (name, refused) ∧
          error = .typeMismatch module ("port '" ++ name ++ "'") "clock, bits or struct"
            refused.text) ∧
    ∀ (value valid : Value) (builder : Builder),
      Ends (Construction.wrap ty value valid) builder
        (fun _ _ => ty.isPayload = true ∧ (ty.HasFlatForm ↔ ty.isData = true))
        fun error after => ty.isPayload = false → ty.isData = false ∧
          error = .typeMismatch builder.name "channel payload" "bits or struct" ty.text ∧
          after = builder := by
  refine ⟨⟨Ty.isSome_width? ty, SimValue.conforms_zero_eq ty⟩, fun module ports shared => ?_,
    fun value valid builder => ?_⟩
  · refine (Elaboration.checks_declarePorts module ports shared).mono ?_ ?_
    · exact fun _ _ accepted name member => ⟨accepted (name, ty) member, Ty.hasFlatForm_iff⟩
    · intro error _ fails
      obtain ⟨name, refused, found, rfl⟩ := fails
      refine ⟨name, refused, List.mem_of_find?_eq_some found, fun form => ?_, found, rfl⟩
      have unfit := List.find?_some found
      simp [form.isPortType] at unfit
  · refine (Construction.checks_wrap ty value valid builder).mono ?_ ?_
    · exact fun _ _ accepted => ⟨accepted, Ty.hasFlatForm_iff_of_isPayload accepted⟩
    · intro error after fails refused
      refine ⟨?_, fails refused⟩
      by_contra data
      rw [Bool.not_eq_false] at data
      cases refused.symm.trans (Ty.isPayload_of_isData data)

/-- A clock, a structure of data, and a structure with a channel inside are all declared; the last
has no flat form. -/
theorem stray_port_is_declared :
    let packet : Ty := .struct [("address", .bits 4), ("flags", .struct [("last", .bit)])]
    let stray : Ty := .struct [("tap", .channel .bit)]
    let ports : List (String × Ty) := [("clk", .clock), ("packet", packet), ("stray", stray)]
    (∃ declared after, (Elaboration.declarePorts "Top" ports).run.run {} = (.ok declared, after)) ∧
      Ty.clock.HasFlatForm ∧ packet.HasFlatForm ∧ ¬ stray.HasFlatForm := by
  intro packet stray ports
  obtain ⟨declared, after, ran⟩ :
      ∃ declared after, (Elaboration.declarePorts "Top" ports).run.run {} = (.ok declared, after) :=
    ⟨_, _, rfl⟩
  have accepted (ty : Ty) := ((accepted_types_flat_iff ty).2.1 "Top" ports {}).of_run_ok ran
  refine ⟨⟨declared, after, ran⟩, ?_, ?_, ?_⟩
  · exact (accepted .clock "clk" (by simp [ports])).2.2 (.inl rfl)
  · exact (accepted packet "packet" (by simp [ports])).2.2 (.inr rfl)
  · intro form
    rcases (accepted stray "stray" (by simp [ports])).2.1 form with clock | data
    · exact Ty.noConfusion clock
    · cases data

end Elastic
