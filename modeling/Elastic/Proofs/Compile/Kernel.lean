import Elastic.Proofs.Compile.Assignment
import Elastic.Proofs.Text.Tags

namespace Elastic

/-! The description of a kernel. It is read back tag by tag, with every attribute as it was meant,
whatever characters are in the names of a design. -/

namespace Artifact

open Text Tag

def memoryTag (graph : Graph) (site : BuiltinSite) : Tag where
  kind := .single
  name := "memory"
  attributes := [
    ("path", AppPath.text site.path),
    ("service", site.serviceName),
    ("impl", site.tag),
    ("dataWidth", toString (memorySize graph site).1),
    ("depth", toString (memorySize graph site).2),
    ("clients", toString site.clients.length)]

def documentText : String :=
  "<?xml version=\"1.0\" encoding=\"UTF-8\"?>\n" ++
    "<root versionMajor=\"1\" versionMinor=\"6\">\n" ++ "  <kernel"

def portText : String :=
  "    <ports>\n" ++
    "      <port name=\"s_axi_control\" mode=\"slave\" range=\"0x10000\" dataWidth=\"32\"" ++
    " portType=\"addressable\" base=\"0x0\"/>\n" ++
    "    </ports>\n" ++
    "    <memories>\n"

def closingText : String := "    </memories>\n" ++ "  </kernel>\n" ++ "</root>\n"

def documentTags : List Tag := [
  ⟨.declaration, "xml", [("version", "1.0"), ("encoding", "UTF-8")]⟩,
  ⟨.opening, "root", [("versionMajor", "1"), ("versionMinor", "6")]⟩]

def kernelTag (name : String) (policy : ArbitrationPolicy) (fingerprint : String) : Tag where
  kind := .opening
  name := "kernel"
  attributes := [("name", name), ("language", "ip_c"), ("arbitration", policy.text),
    ("fingerprint", fingerprint)]

def portTags : List Tag := [
  ⟨.opening, "ports", []⟩,
  ⟨.single, "port", [("name", "s_axi_control"), ("mode", "slave"), ("range", "0x10000"),
    ("dataWidth", "32"), ("portType", "addressable"), ("base", "0x0")]⟩,
  ⟨.closing, "ports", []⟩,
  ⟨.opening, "memories", []⟩]

def openingTags (name : String) (policy : ArbitrationPolicy) (fingerprint : String) : List Tag :=
  documentTags ++ kernelTag name policy fingerprint :: portTags

def closingTags : List Tag :=
  [⟨.closing, "memories", []⟩, ⟨.closing, "kernel", []⟩, ⟨.closing, "root", []⟩]

variable {state : State} {tags : List Tag} {tag : Tag}

theorem leads_attr (key : String) (named : isKey key.toList = true)
    (blank : step state ' ' = some (tags, .inside tag)) (value : String) :
    Leads state (attr key value).toList
      (tags, .inside { tag with attributes := tag.attributes ++ [(key, value)] }) := by
  have read := leads_attribute named blank value.toList
  rw [String.ofList_toList, String.ofList_toList] at read
  have spelled : (attr key value).toList =
      ' ' :: (key.toList ++ '=' :: '"' :: (markupChars value.toList ++ ['"'])) := by
    simp [attr, markup]
  rwa [spelled]

def attrs (attributes : List (String × String)) : List Char :=
  attributes.flatMap fun (key, value) => (attr key value).toList

theorem leads_attrs (attributes : List (String × String)) (nonempty : attributes ≠ [])
    (named : (attributes.map (·.1)).all (fun key => isKey key.toList) = true)
    (blank : step state ' ' = some (tags, .inside tag)) :
    Leads state (attrs attributes)
      (tags, .inside { tag with attributes := tag.attributes ++ attributes }) := by
  induction attributes generalizing state tag with
  | nil => exact absurd rfl nonempty
  | cons pair rest induction =>
      obtain ⟨key, value⟩ := pair
      obtain ⟨own, others⟩ := Bool.and_eq_true_iff.1 named
      have first := leads_attr key own blank value
      by_cases last : rest = []
      · rw [last, attrs, List.flatMap_singleton]
        exact first
      · have more := first.append (induction last others rfl)
        rw [List.append_assoc, List.singleton_append] at more
        exact more

theorem leads_named (name : String) (attributes : List (String × String))
    (nonempty : attributes ≠ [])
    (named : (attributes.map (·.1)).all (fun key => isKey key.toList) = true) :
    Leads (tags, .naming .opening name.toList) (attrs attributes)
      (tags, .inside { kind := .opening, name := name, attributes := attributes }) := by
  have blank : step (tags, .naming .opening name.toList) ' ' =
      some (tags, .inside ⟨.opening, String.ofList name.toList, []⟩) := rfl
  rw [String.ofList_toList] at blank
  exact leads_attrs attributes nonempty named blank

theorem memoryElement_eq (graph : Graph) (site : BuiltinSite) :
    memoryElement graph site = "      <memory" ++ attr "path" (AppPath.text site.path) ++
      attr "service" site.serviceName ++ attr "impl" site.tag ++
      attr "dataWidth" (toString (memorySize graph site).1) ++
      attr "depth" (toString (memorySize graph site).2) ++
      attr "clients" (toString site.clients.length) ++ "/>\n" :=
  rfl

theorem leads_memoryElement (graph : Graph) (site : BuiltinSite) (tags : List Tag) :
    Leads (tags, .outside) (memoryElement graph site).toList
      (tags ++ [memoryTag graph site], .outside) := by
  have spelled : (memoryElement graph site).toList = "      <memory".toList ++
      (attrs (memoryTag graph site).attributes ++ "/>\n".toList) := by
    rw [memoryElement_eq]
    simp only [memoryTag, attrs, List.flatMap_cons, List.flatMap_nil,
      String.toList_append, List.append_assoc, List.append_nil]
  have keys : (memoryTag graph site).attributes.map (·.1) =
      ["path", "service", "impl", "dataWidth", "depth", "clients"] := rfl
  have opened : Leads (tags, .outside) "      <memory".toList
      (tags, .naming .opening "memory".toList) := rfl
  have inside : Leads (tags, .naming .opening "memory".toList) _ _ :=
    leads_named "memory" (memoryTag graph site).attributes nofun (by rw [keys]; decide)
  have ended : Leads (tags, .inside ⟨.opening, "memory", (memoryTag graph site).attributes⟩)
      "/>\n".toList (tags ++ [memoryTag graph site], .outside) := rfl
  rw [spelled]
  exact opened.append (inside.append ended)

theorem leads_builtins (graph : Graph) (builtins : List BuiltinSite) (tags : List Tag) :
    Leads (tags, .outside) (String.join (builtins.map (memoryElement graph))).toList
      (tags ++ builtins.map (memoryTag graph), .outside) := by
  induction builtins generalizing tags with
  | nil => exact (List.append_nil tags).symm ▸ .nil
  | cons site rest induction =>
      have more := (leads_memoryElement graph site tags).append (induction _)
      rw [List.append_assoc, List.singleton_append, ← String.toList_append] at more
      rw [List.map_cons, List.map_cons, String.join_cons]
      exact more

theorem kernelDescription_eq (name : String) (policy : ArbitrationPolicy) (fingerprint : String)
    (graph : Graph) (builtins : List BuiltinSite) :
    (kernelDescription name policy fingerprint graph builtins).toList = documentText.toList ++
      (attrs (kernelTag name policy fingerprint).attributes ++ (">\n".toList ++
        (portText.toList ++ ((String.join (builtins.map (memoryElement graph))).toList ++
          closingText.toList)))) := by
  unfold kernelDescription documentText portText closingText attrs kernelTag
  simp only [List.flatMap_cons, List.flatMap_nil, String.toList_append, List.append_assoc,
    List.nil_append]

theorem leads_kernelDescription (name : String) (policy : ArbitrationPolicy)
    (fingerprint : String) (graph : Graph) (builtins : List BuiltinSite) :
    Leads ([], .outside) (kernelDescription name policy fingerprint graph builtins).toList
      (openingTags name policy fingerprint ++ builtins.map (memoryTag graph) ++ closingTags,
        .outside) := by
  have document : Leads ([], .outside) documentText.toList
      (documentTags, .naming .opening "kernel".toList) := by
    unfold Leads
    decide +kernel
  have ports : Leads ([], .outside) portText.toList (portTags, .outside) := by
    unfold Leads
    decide +kernel
  have closing : Leads ([], .outside) closingText.toList (closingTags, .outside) := by
    unfold Leads
    decide +kernel
  have keys : (kernelTag name policy fingerprint).attributes.map (·.1) =
      ["name", "language", "arbitration", "fingerprint"] := rfl
  have inside : Leads (documentTags, .naming .opening "kernel".toList) _ _ :=
    leads_named "kernel" (kernelTag name policy fingerprint).attributes nofun (by rw [keys]; decide)
  have ended : Leads (documentTags,
        .inside ⟨.opening, "kernel", (kernelTag name policy fingerprint).attributes⟩) ">\n".toList
      (documentTags ++ [kernelTag name policy fingerprint], .outside) := rfl
  have opening := ports.behind (documentTags ++ [kernelTag name policy fingerprint])
  rw [List.append_nil, List.append_assoc, List.singleton_append] at opening
  have memories := leads_builtins graph builtins (openingTags name policy fingerprint)
  have last := closing.behind (openingTags name policy fingerprint ++
    builtins.map (memoryTag graph))
  rw [List.append_nil] at last
  rw [kernelDescription_eq]
  exact document.append (inside.append (ended.append (opening.append (memories.append last))))

theorem tags?_kernelDescription (name : String) (policy : ArbitrationPolicy)
    (fingerprint : String) (graph : Graph) (builtins : List BuiltinSite) :
    tags? (kernelDescription name policy fingerprint graph builtins) =
      some (openingTags name policy fingerprint ++ builtins.map (memoryTag graph) ++
        closingTags) := by
  have leads := leads_kernelDescription name policy fingerprint graph builtins
  rw [tags?, leads]

theorem filter_memory (name : String) (policy : ArbitrationPolicy) (fingerprint : String)
    (graph : Graph) (builtins : List BuiltinSite) :
    (openingTags name policy fingerprint ++ builtins.map (memoryTag graph) ++ closingTags).filter
      (·.name = "memory") = builtins.map (memoryTag graph) := by
  have opening : (openingTags name policy fingerprint).filter (·.name = "memory") = [] := by
    simp [openingTags, documentTags, kernelTag, portTags]
  have closing : closingTags.filter (·.name = "memory") = [] := by decide
  have all : ∀ tag ∈ builtins.map (memoryTag graph), decide (tag.name = "memory") = true := by
    simp [memoryTag]
  rw [List.filter_append, List.filter_append, opening, closing, List.filter_eq_self.2 all,
    List.nil_append, List.append_nil]

end Artifact

namespace ServiceMap

variable {graph : Graph} {names : Names} {map after : ServiceMap}

theorem resolveOne_idle {inst : InstanceId} {id : ServiceInstanceId} {held : ServiceInstance}
    (resolved : resolveOne graph map inst id held = .ok after) :
    after.builtins.map idle = map.builtins.map idle := by
  unfold resolveOne at resolved
  split at resolved
  · cases resolved
  · dsimp only at resolved
    split at resolved
    · cases resolved
      rfl
    · split at resolved
      · cases resolved
      · cases resolved
        exact idle_addClient _ _ _

theorem resolveAll_idle {sites : List (InstanceId × ServiceInstanceId × ServiceInstance)}
    (resolved : resolveAll graph map sites = .ok after) :
    after.builtins.map idle = map.builtins.map idle := by
  induction sites generalizing map with
  | nil =>
      cases resolved
      rfl
  | cons site rest induction =>
      obtain ⟨inst, id, held⟩ := site
      unfold resolveAll at resolved
      split at resolved
      · cases resolved
      · rename_i next first
        exact (induction resolved).trans (resolveOne_idle first)

theorem idle_of_resolve (resolved : resolve graph names = .ok map) :
    map.builtins.map idle = builtinSites graph names :=
  (resolveAll_idle resolved).trans (covers_start graph names).retains.builtins

end ServiceMap

namespace CompiledDesign

variable {name version : String} {graph : Graph} {names : Names} {capabilities : Capabilities}
  {policy : ArbitrationPolicy} {design : CompiledDesign} {warnings : List Diagnostic}

theorem kernel_of_compile
    (compiled : compile name version graph names .xrt capabilities policy =
      (.ok design, warnings)) :
    ∃ artifact, design.artifact? "xrt/kernel.xml" = some artifact ∧
      artifact.text? = some (Artifact.kernelDescription name policy design.manifest.fingerprint
        graph design.services.builtins) := by
  have artifacts := Except.ok.inj (lower_of_compile compiled)
  rw [artifact?, ← artifacts, Artifact.find?_shared (by decide) (by decide)]
  exact ⟨_, rfl, Artifact.text?_ofText _ _⟩

open Text in
/-- The description of a kernel is read back as it was meant: between the tags of the kernel one tag
for each builtin of the design, in order, with names as they are, whatever characters these are made
of. -/
theorem kernel_is_read_back
    (compiled : compile name version graph names .xrt capabilities policy =
      (.ok design, warnings)) :
    (∃ artifact, design.artifact? "xrt/kernel.xml" = some artifact ∧
      artifact.text?.bind Tag.tags? = some
        (Artifact.openingTags name policy design.manifest.fingerprint ++
          design.services.builtins.map (Artifact.memoryTag graph) ++ Artifact.closingTags)) ∧
    design.services.builtins.map ServiceMap.idle = ServiceMap.builtinSites graph names ∧
    ∀ text, unmarkup (markupChars text) = text ∧ ∀ mark ∈ delimiters, mark ∉ markupChars text := by
  obtain ⟨artifact, present, text⟩ := kernel_of_compile compiled
  have read := Artifact.tags?_kernelDescription name policy design.manifest.fingerprint graph
    design.services.builtins
  exact ⟨⟨artifact, present, Option.bind_eq_some_iff.2 ⟨_, text, read⟩⟩,
    ServiceMap.idle_of_resolve (resolve_of_compile compiled).2, fun text =>
      ⟨unmarkup_markupChars text, fun mark delimiter => not_mem_markupChars delimiter text⟩⟩

end CompiledDesign

namespace MarkedDesign

def memoryService (word : Ty) : Service := .randomAccessMemory "R&D \"1\"" word 4

def setting (word : Ty) : Setting where
  library := {
    modules := [{
      name := "Top"
      ports := [("clk", .clock), ("rst", .bit)]
      recipe := .ofSteps [.port "clk" (some "clk"), .port "rst" (some "rst"),
        .builtin (memoryService word) ⟨"<'a'>", none⟩ memoryTag [] ["clk", "rst"] []] .done }]
    services := [memoryService word] }
  preset := .xrt
  capabilities := BackendPreset.xrt.capabilities

def compile? (word : Ty) : Option (Graph × CompiledDesign) := do
  let graph ← (generate (setting word) "Top").outcome.toOption
  let design ← (CompiledDesign.compile "\"><kernel" "1.0" graph
    (generate (setting word) "Top").names .xrt BackendPreset.xrt.capabilities
    .fixedPriority).1.toOption
  return (graph, design)

theorem compiled_of_compile? {word : Ty} {graph : Graph} {design : CompiledDesign}
    (held : compile? word = some (graph, design)) :
    ∃ warnings, CompiledDesign.compile "\"><kernel" "1.0" graph
      (generate (setting word) "Top").names .xrt BackendPreset.xrt.capabilities .fixedPriority =
        (.ok design, warnings) := by
  obtain ⟨graph, -, held⟩ := Option.bind_eq_some_iff.1 held
  obtain ⟨design, compiled, held⟩ := Option.bind_eq_some_iff.1 held
  cases held
  exact ⟨_, Prod.ext (eq_ok_of_toOption compiled) rfl⟩

end MarkedDesign

open Text in
theorem marked_kernel_is_read_back :
    ∃ graph design warnings artifact tags,
      CompiledDesign.compile "\"><kernel" "1.0" graph
        (generate (MarkedDesign.setting (.bits 8)) "Top").names .xrt
        BackendPreset.xrt.capabilities .fixedPriority = (.ok design, warnings) ∧
      design.artifact? "xrt/kernel.xml" = some artifact ∧
      artifact.text?.bind Tag.tags? = some tags ∧
      (∃ kernel ∈ tags, kernel.value? "name" = some "\"><kernel") ∧
      (tags.filter (·.name = "memory")).map (fun tag => tag.attributes.take 3) =
        [[("path", "Top.<'a'>"), ("service", "R&D \"1\""), ("impl", memoryTag)]] := by
  have facts : ((MarkedDesign.compile? (.bits 8)).map fun made =>
      made.2.services.builtins.map fun site => (AppPath.text site.path, site.serviceName,
        site.tag)) = some [("Top.<'a'>", "R&D \"1\"", memoryTag)] := by
    decide +kernel
  obtain ⟨⟨graph, design⟩, made, facts⟩ := Option.map_eq_some_iff.1 facts
  obtain ⟨site, hostSilent, facts⟩ := List.map_eq_singleton_iff.1 facts
  obtain ⟨path, rest⟩ := Prod.mk.inj facts
  obtain ⟨service, tag⟩ := Prod.mk.inj rest
  obtain ⟨warnings, compiled⟩ := MarkedDesign.compiled_of_compile? made
  obtain ⟨⟨artifact, present, read⟩, -, -⟩ := CompiledDesign.kernel_is_read_back compiled
  refine ⟨graph, design, warnings, artifact, _, compiled, present, read, ?_, ?_⟩
  · refine ⟨Artifact.kernelTag "\"><kernel" .fixedPriority design.manifest.fingerprint,
      List.mem_append_left _ (List.mem_append_left _ ?_), rfl⟩
    exact List.mem_append_right _ List.mem_cons_self
  · rw [Artifact.filter_memory, hostSilent, ← path, ← service, ← tag]
    rfl

end Elastic
