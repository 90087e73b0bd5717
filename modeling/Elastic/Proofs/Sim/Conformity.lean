import Elastic.Proofs.Sim.Contracts
import Elastic.Proofs.Sim.Layout
import Elastic.Proofs.Sim.Denotation

namespace Elastic

/-! Values of their types. While the inputs, the memories and the host hold such values, every
expression settles to a value of the type that the module gives it, and every channel to one of its
payload type; and no equation stops at a fault other than the result of a builtin. -/

variable {meaning : Denotation}

def PortState.Typed (meaning : Denotation) (ty : Ty) (port : PortState) : Prop :=
  ∀ client ∈ port.clients, ∀ response, client.pending = some response → meaning.fits response ty

structure Memory.Typed (meaning : Denotation) (memory : Memory) : Prop where
  words : ∀ word ∈ memory.words, meaning.fits word memory.word
  pending : ∀ port : MemoryPort, (memory.port port).Typed meaning (port.answer memory.word)

structure HostRole.Typed (meaning : Denotation) (role : HostRole) : Prop where
  outbound : ∀ value ∈ role.outbound, meaning.fits value role.payload
  inbound : ∀ value ∈ role.inbound, meaning.fits value role.payload

structure SimState.Typed (meaning : Denotation) (net : Netlist) (state : SimState) : Prop where
  inputs : List.Forall₂
    (fun value (port : Port) => meaning.fits value (net.graph.types.get port.ty))
    state.inputs (net.graph.moduleOf net.graph.root).ports
  memories : ∀ memory ∈ state.memories, memory.Typed meaning
  hosts : ∀ host ∈ state.hosts, ∀ role ∈ host.roles, role.Typed meaning

theorem Module.HasTy.lt_size {types : TyPool} {module : Module} {id : ExprId} {ty : Ty}
    (typed : module.HasTy types id ty) : id < module.exprs.size := by
  cases typed <;> exact Arena.lt_size_of_get? ‹_›

namespace Netlist

/-- The types of which a simulation makes up zeros. -/
structure Plain (meaning : Denotation) (net : Netlist) (frame : StateFrame) : Prop where
  inputs : ∀ port ∈ (net.graph.moduleOf net.graph.root).ports,
    meaning.plain (net.graph.types.get port.ty)
  roles : ∀ site slot, net.slot? site = some slot →
    meaning.plain (net.graph.types.get slot.payload)
  words : ∀ memory ∈ frame.memories, meaning.plain memory.word

def IsResult (net : Netlist) (error : SimError) : Prop :=
  ∃ inst id builtin index,
    (net.graph.moduleOf inst).exprs.get? id = some (.builtinResult builtin index) ∧
      error = .unsupported
        ("result " ++ toString index ++ " of builtin #" ++ toString builtin ++ " in " ++
          net.pathText inst)

def contract (meaning : Denotation) (net : Netlist) (state : SimState) : Contract where
  live := net.Has state
  good
    | .expr inst id, value => ∀ ty, (net.graph.moduleOf inst).HasTy net.graph.types id ty →
      meaning.fits value ty
    | .data inst channel, value => ∀ held,
      (net.graph.moduleOf inst).channels.get? channel = some held →
      meaning.fits value (net.graph.types.get held.payload)
    | .valid _ _, _ | .ready _ _, _ | .grant _ _, _ => True
  sort := net.IsResult

/-- What the equations of a cycle rely on. -/
structure Conforms (meaning : Denotation) (net : Netlist) (state : SimState) : Prop where
  complete : net.Complete state.frame
  routed : net.Routed state.clientSite?
  plain : net.Plain meaning state.frame
  typed : state.Typed meaning net

end Netlist

namespace Query

open Netlist

variable {net : Netlist} {state : SimState} {inst : InstanceId} {site : RoleSite}
  {slot : RoleSlot}

theorem meets_expr {id : ExprId} {ty : Ty}
    (typed : (net.graph.moduleOf inst).HasTy net.graph.types id ty) :
    (Query.expr inst id).Meets (net.contract meaning state) (meaning.fits · ty) :=
  (meets_demand typed.lt_size).mono fun _ good => good ty typed

theorem meets_exprs {ids : List ExprId} {decls : List (String × Ty)}
    (typed : List.Forall₂
      (fun id decl => (net.graph.moduleOf inst).HasTy net.graph.types id decl.2) ids decls) :
    (exprs inst ids).Meets (net.contract meaning state)
      (List.Forall₂ (fun value decl => meaning.fits value decl.2) · decls) := by
  induction typed with
  | nil => exact meets_pure .nil
  | cons first rest induction =>
      exact (meets_expr first).bind fun value fits =>
        induction.bind fun values others => meets_pure (.cons fits others)

theorem meets_valid {channel : ChannelId} {held : Channel}
    (known : (net.graph.moduleOf inst).channels.get? channel = some held) :
    (Query.valid inst channel).Meets (net.contract meaning state) fun _ => True :=
  meets_demand (Arena.lt_size_of_get? known)

theorem meets_ready {channel : ChannelId} {held : Channel}
    (known : (net.graph.moduleOf inst).channels.get? channel = some held) :
    (Query.ready inst channel).Meets (net.contract meaning state) fun _ => True :=
  meets_demand (Arena.lt_size_of_get? known)

theorem meets_data {channel : ChannelId} {held : Channel}
    (known : (net.graph.moduleOf inst).channels.get? channel = some held) :
    (Query.data inst channel).Meets (net.contract meaning state)
      (meaning.fits · (net.graph.types.get held.payload)) :=
  (meets_demand (Arena.lt_size_of_get? known)).mono fun _ good => good held known

theorem meets_endpoint {id : ServiceInstanceId} {endpoint : Endpoint}
    (leads : net.endpoint inst id = .ok endpoint) :
    (ofExcept (net.endpoint inst id)).Meets (net.contract meaning state) (· = endpoint) := by
  rw [leads]
  exact rfl

section

variable (conforms : net.Conforms meaning state)
include conforms

theorem meets_inReset {memory : Nat} {held : Memory}
    (present : state.memories[memory]? = some held) :
    (inReset state memory).Meets (net.contract meaning state) fun _ => True := by
  unfold inReset
  rw [present]
  dsimp only
  cases known : held.reset with
  | none => exact meets_pure trivial
  | some reset =>
      have member : held.frame ∈ state.frame.memories :=
        List.mem_map.2 ⟨held, List.mem_of_getElem? present, rfl⟩
      have settles : (Query.expr held.inst reset).Meets (net.contract meaning state)
          fun _ => True :=
        (meets_demand (conforms.complete.resets _ member reset known)).mono fun _ _ => trivial
      exact settles.bind fun _ _ => meets_pure trivial

omit conforms in
theorem exists_memory {memory : Nat} {frame : MemoryFrame}
    (held : state.frame.memories[memory]? = some frame) :
    ∃ present, state.memories[memory]? = some present ∧ present.frame = frame := by
  rw [SimState.frame, List.getElem?_map] at held
  exact Option.map_eq_some_iff.1 held

omit conforms in
theorem exists_hostRole {host role : Nat} {types : TyPool} {bundle : Bundle}
    (held : state.frame.hosts[host]? = some (bundle.roles.map fun slot => types.get slot.payload))
    (known : bundle.roles[role]? = some slot) :
    ∃ present, state.hostRole? host role = some present ∧
      present.payload = types.get slot.payload := by
  rw [SimState.frame, List.getElem?_map] at held
  obtain ⟨present, found, same⟩ := Option.map_eq_some_iff.1 held
  have payloads := congrArg (·[role]?) same
  simp only [List.getElem?_map, known, Option.map_some] at payloads
  rw [SimState.hostRole?, found, Option.bind_some]
  exact Option.map_eq_some_iff.1 payloads

theorem typed_hostRole {host role : Nat} {held : HostRole}
    (present : state.hostRole? host role = some held) : held.Typed meaning := by
  obtain ⟨around, found, inside⟩ := Option.bind_eq_some_iff.1 present
  exact conforms.typed.hosts around (List.mem_of_getElem? found) held
    (List.mem_of_getElem? inside)

theorem meets_pending {ref : ClientRef} {held : Memory} {client : ServiceSite}
    (present : state.memories[ref.memory]? = some held)
    (taken : state.clientSite? ref = some client) :
    (pending state ref).Meets (net.contract meaning state) fun response =>
      ∀ value, response = some value → meaning.fits value (ref.port.answer held.word) := by
  obtain ⟨client, taken, -⟩ := Option.map_eq_some_iff.1 taken
  unfold pending
  rw [taken]
  rw [SimState.client?, present, Option.bind_some] at taken
  exact meets_pure fun value waits =>
    (conforms.typed.memories held (List.mem_of_getElem? present)).pending ref.port client
      (List.mem_of_getElem? taken) value waits

theorem meets_outbound {host role : Nat} {held : HostRole}
    (present : state.hostRole? host role = some held) :
    (outbound state host role).Meets (net.contract meaning state) fun first =>
      ∀ value, first = some value → meaning.fits value held.payload := by
  unfold outbound
  rw [present]
  exact meets_pure fun value first =>
    (typed_hostRole conforms present).outbound value (List.mem_of_head? first)

theorem meets_roleValid (here : net.slot? site = some slot) :
    (roleValid net state site).Meets (net.contract meaning state) fun _ => True := by
  have attached := conforms.complete.source here
  unfold roleValid
  generalize net.source site = source at attached
  cases attached with
  | channel known payload => exact meets_valid known
  | nothing => exact meets_pure trivial
  | service leads present known stands suits =>
      refine (meets_endpoint leads).bind fun _ same => ?_
      subst same
      cases suits with
      | host held =>
          obtain ⟨role, found, -⟩ := exists_hostRole held known
          exact (meets_outbound conforms found).bind fun _ _ => meets_pure trivial
      | memory held slots =>
          obtain ⟨memory, found, -⟩ := exists_memory held
          have taken := (conforms.routed.endpoint _ _ _).1 leads
          refine (meets_inReset conforms found).bind fun reset _ => ?_
          cases reset with
          | true => exact meets_pure trivial
          | false => exact (meets_pending conforms found taken).bind fun _ _ => meets_pure trivial

theorem meets_roleReady (here : net.slot? site = some slot) :
    (roleReady net site).Meets (net.contract meaning state) fun _ => True := by
  have attached := conforms.complete.sink here
  unfold roleReady
  generalize net.sink site = sink at attached
  cases attached with
  | channel known payload => exact meets_ready known
  | nothing => exact meets_pure trivial
  | service leads present known stands suits =>
      refine (meets_endpoint leads).bind fun _ same => ?_
      subst same
      cases suits with
      | host held => exact meets_pure trivial
      | @memory ref frame depth held slots =>
          obtain ⟨memory, found, -⟩ := exists_memory held
          have settles : (Query.grant ref.memory ref.port).Meets (net.contract meaning state)
              fun _ => True :=
            meets_demand (List.getElem?_eq_some_iff.1 found).1
          exact settles.bind fun _ _ => meets_pure trivial

theorem payload_of_ref {ref : ClientRef} {id : ServiceInstanceId} {bundle : Bundle}
    {memory : MemoryFrame} {depth : UInt32} {side : ServiceSide}
    (leads : net.endpoint site.inst id = .ok ref.endpoint)
    (present : net.bundle? site.inst site.bundle = some bundle)
    (known : bundle.roles[site.role]? = some slot) (stands : bundle.at side = .service id)
    (slots : SlotsOf net.graph.types (ref.port.bundle memory.word depth) bundle.roles) :
    (side = slot.flow.source →
        net.graph.types.get slot.payload = ref.port.answer memory.word) ∧
      (side = slot.flow.target →
        net.graph.types.get slot.payload = ref.port.question memory.word depth) := by
  obtain ⟨server, -⟩ := conforms.routed.own_end leads present stands
  subst server
  rw [TyPool.get_of_get? (slots.payload_of_port known)]
  cases slot.flow with
  | toService => exact ⟨nofun, fun _ => rfl⟩
  | fromService => exact ⟨fun _ => rfl, nofun⟩

theorem meets_roleData (here : net.slot? site = some slot) :
    (roleData net state site).Meets (net.contract meaning state)
      (meaning.fits · (net.graph.types.get slot.payload)) := by
  have attached := conforms.complete.source here
  have zero : meaning.fits (.zero (net.graph.types.get slot.payload))
      (net.graph.types.get slot.payload) := meaning.zero (conforms.plain.roles site slot here)
  unfold roleData
  rw [rolePayload?, here, Option.map_some]
  dsimp only
  generalize net.source site = source at attached
  cases attached with
  | channel known payload =>
      rw [← payload]
      exact meets_data known
  | nothing => exact meets_pure zero
  | service leads present known stands suits =>
      refine (meets_endpoint leads).bind fun _ same => ?_
      subst same
      cases suits with
      | @host host held =>
          obtain ⟨role, found, same⟩ := exists_hostRole held known
          refine (meets_outbound conforms found).bind fun first fits => ?_
          rw [same] at fits
          cases first with
          | none => exact meets_pure zero
          | some value => exact meets_pure (fits value rfl)
      | @memory ref frame depth held slots =>
          obtain ⟨memory, found, rfl⟩ := exists_memory held
          have answers := (payload_of_ref conforms leads present known stands slots).1 rfl
          have taken := (conforms.routed.endpoint _ _ _).1 leads
          refine (meets_pending conforms found taken).bind fun first fits => ?_
          cases first with
          | none => exact meets_pure zero
          | some value =>
              refine meets_pure ?_
              rw [Option.getD_some, answers]
              exact fits value rfl

theorem meets_port {index : Nat} {held : Port} {ty : Ty}
    (bound : inst < net.graph.instances.size)
    (stands : (net.graph.moduleOf inst).ports[index]? = some held)
    (typed : net.graph.types.get? held.ty = some ty) :
    (port net state inst index).Meets (net.contract meaning state) (meaning.fits · ty) := by
  unfold port
  split
  · rename_i none
    rw [conforms.complete.nested.root inst bound none] at stands
    obtain ⟨length, each⟩ := List.forall₂_iff_get.1 conforms.typed.inputs
    obtain ⟨inside, rfl⟩ := List.getElem?_eq_some_iff.1 stands
    have present := Nat.lt_of_lt_of_eq inside length.symm
    rw [List.getElem?_eq_getElem present]
    exact meets_pure (TyPool.get_of_get? typed ▸ each index present inside)
  · rename_i outer position found
    obtain ⟨around, child, known, inner⟩ :=
      conforms.complete.nested.outer inst outer position found
    obtain ⟨module, same, feeds⟩ :=
      (conforms.complete.typed outer around).children child (List.mem_of_getElem? known)
    rw [inner] at same
    cases same
    obtain ⟨length, each⟩ := List.forall₂_iff_get.1 feeds
    obtain ⟨inside, rfl⟩ := List.getElem?_eq_some_iff.1 stands
    have present := Nat.lt_of_lt_of_eq inside length.symm
    obtain ⟨ty', typed', connected⟩ := each index present inside
    rw [known]
    dsimp only
    rw [List.getElem?_eq_getElem present]
    cases typed.symm.trans typed'
    exact meets_expr connected

theorem meets_ofExpr {id : ExprId} {held : Expr} {ty : Ty}
    (known : (net.graph.moduleOf inst).exprs.get? id = some held)
    (typed : (net.graph.moduleOf inst).HasTy net.graph.types id ty) :
    (ofExpr net state inst held).Meets (net.contract meaning state) (meaning.fits · ty) := by
  have bound : inst < net.graph.instances.size :=
    lt_size_of_has_part (.inl typed.lt_size)
  obtain ⟨limit, wired⟩ := conforms.complete.wired inst bound
  have within := wired.placed.exprs id held known
  cases typed with
  | const stands fits =>
      cases stands.symm.trans known
      exact meets_pure (meaning.word fits)
  | port stands named typed =>
      cases stands.symm.trans known
      exact meets_port conforms bound named typed
  | data stands present typed =>
      cases stands.symm.trans known
      rw [← TyPool.get_of_get? typed]
      exact meets_data present
  | valid stands =>
      cases stands.symm.trans known
      obtain ⟨channel, present⟩ := Arena.exists_get?_of_lt_size within
      exact (meets_valid present).bind fun bit _ => meets_pure (meaning.ofBool bit)
  | ready stands =>
      cases stands.symm.trans known
      obtain ⟨channel, present⟩ := Arena.exists_get?_of_lt_size within
      exact (meets_ready present).bind fun bit _ => meets_pure (meaning.ofBool bit)
  | struct stands length typed =>
      cases stands.symm.trans known
      have fields : List.Forall₂ (fun operand (decl : String × Ty) =>
          (net.graph.moduleOf inst).HasTy net.graph.types operand decl.2) _ _ :=
        List.forall₂_iff_get.2 ⟨length, fun index one other =>
          typed index _ _ (List.getElem?_eq_getElem one) (List.getElem?_eq_getElem other)⟩
      exact (meets_exprs fields).bind fun values fits => meets_pure (meaning.struct.2 fits)
  | field stands typed inside =>
      cases stands.symm.trans known
      refine (meets_expr typed).bind fun value fits => ?_
      obtain ⟨part, found, fits⟩ := meaning.field fits inside
      rw [found]
      exact meets_pure fits
  | and stands one other =>
      cases stands.symm.trans known
      refine (meets_expr one).bind fun first _ => ?_
      cases first.isTrue with
      | false => exact meets_pure (meaning.ofBool false)
      | true => exact (meets_expr other).bind fun second _ => meets_pure (meaning.ofBool _)
  | or stands one other =>
      cases stands.symm.trans known
      refine (meets_expr one).bind fun first _ => ?_
      cases first.isTrue with
      | true => exact meets_pure (meaning.ofBool true)
      | false => exact (meets_expr other).bind fun second _ => meets_pure (meaning.ofBool _)
  | not stands typed =>
      cases stands.symm.trans known
      exact (meets_expr typed).bind fun operand _ => meets_pure (meaning.ofBool _)
  | result stands present named typed =>
      cases stands.symm.trans known
      exact ⟨inst, id, _, _, known, rfl⟩

theorem meets_requestValid {ref : ClientRef} {client : PortClient}
    (taken : state.client? ref = some client) :
    (requestValid net state client).Meets (net.contract meaning state) fun _ => True := by
  have stands : state.clientSite? ref = some client.site := by
    rw [SimState.clientSite?, taken, Option.map_some]
  obtain ⟨held, bundle, known, -, present, flows⟩ := conforms.routed.bundle ref _ stands
  obtain ⟨request, response, roles, forward, -⟩ := roles_of_flows flows
  unfold requestValid
  have first : requestRole? bundle = some 0 := by
    simp [requestRole?, roles, forward, List.findIdx?_cons]
  rw [show (net.graph.moduleOf client.inst).services.get? client.serviceInstance = some held
    from known]
  dsimp only
  rw [show net.bundle? client.inst held.bundle = some bundle from present]
  dsimp only
  rw [first]
  exact meets_roleValid conforms (slot?_eq_some.2 ⟨bundle, present, by rw [roles]; rfl⟩)

theorem meets_requests (clients : List PortClient)
    (taken : ∀ client ∈ clients, ∃ ref, state.client? ref = some client) :
    (requests net state clients).Meets (net.contract meaning state) fun _ => True := by
  induction clients with
  | nil => exact meets_pure trivial
  | cons client rest induction =>
      have others := induction fun client member => taken client (List.mem_cons_of_mem _ member)
      obtain ⟨ref, here⟩ := taken client List.mem_cons_self
      unfold requests
      split
      · exact others.bind fun _ _ => meets_pure trivial
      · exact (meets_requestValid conforms here).bind fun _ _ =>
          others.bind fun _ _ => meets_pure trivial

theorem meets_ofGrant {memory : Nat} {held : Memory} (port : MemoryPort)
    (present : state.memories[memory]? = some held) :
    (ofGrant net state memory port).Meets (net.contract meaning state) fun _ => True := by
  have routed : ∀ client ∈ (held.port port).clients, ∃ ref, state.client? ref = some client := by
    intro client member
    obtain ⟨place, found⟩ := List.mem_iff_getElem?.1 member
    exact ⟨⟨memory, port, place⟩, by rw [SimState.client?, present, Option.bind_some, found]⟩
  unfold ofGrant
  rw [present]
  refine (meets_inReset conforms present).bind fun high _ => ?_
  cases high with
  | true => exact meets_pure trivial
  | false => exact (meets_requests conforms _ routed).bind fun _ _ => meets_pure trivial

theorem meets_channel {channel : ChannelId} {held : Channel}
    (known : (net.graph.moduleOf inst).channels.get? channel = some held) :
    (equation net state (.valid inst channel)).Meets (net.contract meaning state)
        (fun _ => True) ∧
      (equation net state (.data inst channel)).Meets (net.contract meaning state)
        (fun value => meaning.fits value (net.graph.types.get held.payload)) ∧
      (equation net state (.ready inst channel)).Meets (net.contract meaning state)
        (fun _ => True) := by
  have bound := lt_size_of_has_part (.inr (Arena.lt_size_of_get? known))
  have typed := (conforms.complete.typed inst bound).channels channel held known
  simp only [equation, withChannel, known]
  refine ⟨?_, ?_, ?_⟩
  · cases starts : held.producer with
    | wrapped data valid =>
        exact (meets_expr (typed.driven data valid starts).2).bind fun _ _ => meets_pure trivial
    | bundle bundle role =>
        obtain ⟨slot, here, -⟩ := conforms.complete.produced known starts
        exact meets_roleValid conforms here
  · cases starts : held.producer with
    | wrapped data valid =>
        obtain ⟨⟨ty, payload, carried⟩, -⟩ := typed.driven data valid starts
        rw [TyPool.get_of_get? payload]
        exact meets_expr carried
    | bundle bundle role =>
        obtain ⟨slot, here, payload⟩ := conforms.complete.produced known starts
        rw [payload]
        exact meets_roleData conforms here
  · cases ends : held.consumer with
    | unbound => exact meets_pure trivial
    | unwrapped ready =>
        exact (meets_expr (typed.taken ready ends)).bind fun _ _ => meets_pure trivial
    | bundle bundle role =>
        obtain ⟨slot, here⟩ := conforms.complete.consumed known ends
        exact meets_roleReady conforms here

theorem kept_contract : (net.contract meaning state).Kept net state := by
  intro signal live
  cases signal with
  | expr inst id =>
      obtain ⟨held, known⟩ := Arena.exists_get?_of_lt_size live
      have bound := lt_size_of_has_part (.inl live)
      let Given := { ty // (net.graph.moduleOf inst).HasTy net.graph.types id ty }
      have : Nonempty Given :=
        let ⟨ty, typed⟩ := (conforms.complete.typed inst bound).exprs id live
        ⟨ty, typed⟩
      simp only [equation, known]
      refine (meets_forall fun given : Given => meets_ofExpr conforms known given.2).mono ?_
      exact fun value fits ty typed => fits ⟨ty, typed⟩
  | valid inst channel =>
      obtain ⟨held, known⟩ := Arena.exists_get?_of_lt_size live
      exact (meets_channel conforms known).1
  | data inst channel =>
      obtain ⟨held, known⟩ := Arena.exists_get?_of_lt_size live
      refine (meets_channel conforms known).2.1.mono fun value fits other same => ?_
      cases known.symm.trans same
      exact fits
  | ready inst channel =>
      obtain ⟨held, known⟩ := Arena.exists_get?_of_lt_size live
      exact (meets_channel conforms known).2.2
  | grant memory port =>
      exact meets_ofGrant conforms port (List.getElem?_eq_getElem live)

end

end Query

namespace Simulator

variable {design : CompiledDesign} {policy : ArbitrationPolicy} {sim : Simulator}

theorem typed_of_withPolicy (made : withPolicy design policy = .ok sim)
    (plain : sim.net.Plain meaning sim.state.frame) : sim.state.Typed meaning sim.net := by
  obtain ⟨graph, entries, memoriesOf, -⟩ := withPolicy_ok made
  obtain ⟨-, inputs, hosts, -, -⟩ := withPolicy_starts made
  refine ⟨?_, ?_, ?_⟩
  · rw [inputs, ← graph, List.forall₂_map_left_iff, List.forall₂_same]
    exact fun port member => meaning.zero (plain.inputs port member)
  · intro memory member
    obtain ⟨place, found⟩ := List.mem_iff_getElem?.1 member
    obtain ⟨builtin, shape, stands, shaped, zero⟩ := memoriesOf.shape place memory found
    obtain ⟨builtin', shape', stands', shaped', frame⟩ := memoriesOf.frame place memory found
    cases stands.symm.trans stands'
    cases shaped.symm.trans shaped'
    have word : memory.word = shape.word := congrArg MemoryFrame.word frame
    constructor
    · intro stored inside
      rw [zero] at inside
      rw [Array.eq_of_mem_replicate inside, ← word]
      exact meaning.zero (plain.words memory.frame (List.mem_map.2 ⟨memory, member, rfl⟩))
    · intro port client inside response pending
      obtain ⟨ref, taken⟩ := List.mem_iff_getElem?.1 inside
      rw [((memoriesOf.refs place memory port ref client found).1 taken).2] at pending
      cases pending
  · rw [hosts]
    intro host member role inside
    obtain ⟨endpoint, -, rfl⟩ := List.mem_map.1 member
    obtain ⟨slot, -, rfl⟩ := List.mem_map.1 inside
    exact ⟨nofun, nofun⟩

theorem conforms_of_withPolicy (contained : design.SelfContained)
    (made : withPolicy design policy = .ok sim)
    (plain : sim.net.Plain meaning sim.state.frame) : sim.net.Conforms meaning sim.state :=
  ⟨complete_of_withPolicy contained made, routed_of_withPolicy contained.built made, plain,
    typed_of_withPolicy made plain⟩

end Simulator

end Elastic
