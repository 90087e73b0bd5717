import Elastic.Disk.Basic
import Elastic.Proofs.Disk.Paths

namespace Elastic

/-! What operations do to the entries of a disk, for paths that lead on by names alone from a
directory that another path reaches. -/

structure Path.Within (base : Path) (names : List String) (path : Path) : Prop where
  segments : Path.segments path = Path.lead base ++ names
  absolute : Path.isAbsolute path = Path.isAbsolute base
  solid : ∀ name ∈ names, Path.isSolid name = true
  filled : names ≠ []

namespace Path.Within

variable {base path inner : Path} {names : List String}

theorem join (named : base ≠ "") (solid : ∀ name ∈ Path.segments path, isSolid name = true) :
    Within base (Path.segments path) (Path.join base path) where
  segments := segments_join named (isAbsolute_of_solid solid)
  absolute := isAbsolute_join named (isAbsolute_of_solid solid)
  solid := solid
  filled := segments_ne_nil path

theorem join_join (within : Within base names inner)
    (solid : ∀ name ∈ Path.segments path, isSolid name = true) :
    Within base (names ++ Path.segments path) (Path.join inner path) where
  segments := by
    rw [segments_join (ne_empty_of_solid within.segments within.filled within.solid)
      (isAbsolute_of_solid solid), lead_of_solid within.segments within.filled within.solid,
      List.append_assoc]
  absolute := by
    rw [isAbsolute_join (ne_empty_of_solid within.segments within.filled within.solid)
      (isAbsolute_of_solid solid), within.absolute]
  solid := fun name member => (List.mem_append.1 member).elim (within.solid name) (solid name)
  filled := by simp [within.filled]

end Path.Within

namespace Disk

variable {disk after : Disk} {root base location : Location} {names : List String}

def file? (disk : Disk) (location : Location) : Option ByteArray :=
  match disk.node? location with
  | some (.file contents) => some contents
  | _ => none

theorem file?_eq_some_iff {contents : ByteArray} :
    disk.file? location = some contents ↔ disk.node? location = some (.file contents) := by
  unfold file?
  split <;> simp_all

theorem file?_eq_none_iff :
    disk.file? location = none ↔ ∀ contents, disk.node? location ≠ some (.file contents) := by
  unfold file?
  split <;> simp_all

theorem isDirectoryAt_iff :
    disk.isDirectoryAt location = true ↔ disk.node? location = some .directory := by
  simp [isDirectoryAt]

theorem file?_congr (same : after.node? location = disk.node? location) :
    after.file? location = disk.file? location := by
  unfold file?
  rw [same]

theorem file?_of_isDirectoryAt (directory : disk.isDirectoryAt location = true) :
    disk.file? location = none := by
  simp [file?, isDirectoryAt_iff.1 directory]

theorem file?_put (disk : Disk) {location : Location} (other : Location) (contents : ByteArray)
    (inner : location ≠ []) :
    (disk.put location (.file contents)).file? other =
      if other = location then some contents else disk.file? other := by
  unfold file?
  rw [node?_put disk other _ inner]
  split_ifs <;> rfl

theorem file?_erase (disk : Disk) {location : Location} (other : Location)
    (inner : location ≠ []) :
    (disk.erase location).file? other =
      if other = location then none else disk.file? other := by
  unfold file?
  rw [node?_erase disk other inner]
  split_ifs <;> rfl

theorem node?_eraseTree (disk : Disk) {location : Location} (other : Location)
    (inner : location ≠ []) :
    (disk.eraseTree location).node? other =
      if location <+: other then none else disk.node? other := by
  cases other with
  | nil => simp [node?, inner]
  | cons name rest =>
      simp only [node?, eraseTree, List.find?_filter]
      by_cases below : location <+: name :: rest
      · rw [if_pos below]
        simp only [Option.map_eq_none_iff, List.find?_eq_none]
        rintro entry - found
        simp only [decide_eq_true_eq, Bool.not_eq_true'] at found
        rw [found.2, List.isPrefixOf_iff_prefix.2 below] at found
        exact absurd found.1 (by simp)
      · rw [if_neg below]
        congr 2
        funext entry
        by_cases found : entry.1 = name :: rest
        · simp [found, Bool.eq_false_iff.2 (mt List.isPrefixOf_iff_prefix.1 below)]
        · simp [found]

/-- Every entry lies in a directory. -/
def Grounded (disk : Disk) : Prop :=
  ∀ entry ∈ disk.entries, disk.isDirectoryAt entry.1.dropLast = true

instance (disk : Disk) : Decidable disk.Grounded :=
  inferInstanceAs (Decidable (∀ _ ∈ _, _))

theorem Grounded.isDirectoryAt (grounded : disk.Grounded) {node : Node}
    (held : disk.node? location = some node) : disk.isDirectoryAt location.dropLast = true := by
  cases location with
  | nil => rfl
  | cons name rest =>
      obtain ⟨entry, found, rfl⟩ := Option.map_eq_some_iff.1 held
      have same : entry.1 = name :: rest := by simpa using List.find?_some found
      rw [← same]
      exact grounded entry (List.mem_of_find?_eq_some found)

structure Wider (disk after : Disk) : Prop where
  current : after.current = disk.current
  directories : ∀ location, disk.isDirectoryAt location = true →
    after.isDirectoryAt location = true

/-- A path leads to a directory. -/
structure Reaches (disk : Disk) (path : Path) (root : Location) : Prop where
  located : disk.locate? path = some root
  directory : disk.isDirectoryAt root = true

namespace Wider

theorem refl (disk : Disk) : disk.Wider disk := ⟨rfl, fun _ directory => directory⟩

theorem trans {last : Disk} (first : disk.Wider after) (second : after.Wider last) :
    disk.Wider last :=
  ⟨second.current.trans first.current, fun location directory =>
    second.directories location (first.directories location directory)⟩

theorem enter? (wider : disk.Wider after) {segment : String} {next : Location}
    (found : disk.enter? base segment = some next) (directory : disk.isDirectoryAt next = true) :
    after.enter? base segment = some next := by
  unfold Disk.enter? at found ⊢
  by_cases here : disk.isDirectoryAt base = true
  · rw [wider.directories base here]
    rw [here] at found
    by_cases idle : Path.isIdle segment = true
    · simpa [idle] using found
    · by_cases upward : Path.isUpward segment = true
      · simpa [idle, upward] using found
      · simp only [Bool.not_true, Bool.false_eq_true, if_false, idle, upward] at found ⊢
        split at found
        · obtain rfl := Option.some.inj found
          have stays := isDirectoryAt_iff.1 (wider.directories _ directory)
          simp [stays]
        · exact absurd found nofun
  · simp [here] at found

theorem isDirectoryAt_of_walk? (found : disk.walk? base names = some location)
    (directory : disk.isDirectoryAt location = true) : disk.isDirectoryAt base = true := by
  cases names with
  | nil =>
      obtain rfl := Option.some.inj found
      exact directory
  | cons segment rest =>
      by_contra other
      simp [Disk.walk?, Disk.enter?, Bool.eq_false_iff.2 other] at found

theorem walk? (wider : disk.Wider after) (found : disk.walk? base names = some location)
    (directory : disk.isDirectoryAt location = true) :
    after.walk? base names = some location := by
  induction names generalizing base with
  | nil => exact found
  | cons segment rest ih =>
      simp only [Disk.walk?] at found ⊢
      split at found
      · exact absurd found nofun
      · next next entered =>
          rw [wider.enter? entered (isDirectoryAt_of_walk? found directory)]
          exact ih found

theorem locate? (wider : disk.Wider after) {path : Path}
    (found : disk.locate? path = some location) (directory : disk.isDirectoryAt location = true) :
    after.locate? path = some location := by
  unfold Disk.locate? at found ⊢
  split at found
  · exact absurd found nofun
  · next named =>
      rw [if_neg named]
      unfold start at found ⊢
      rw [wider.current]
      exact wider.walk? found directory

theorem reaches (wider : disk.Wider after) {path : Path} (reaches : disk.Reaches path root) :
    after.Reaches path root :=
  ⟨wider.locate? reaches.located reaches.directory, wider.directories root reaches.directory⟩

end Wider

def Leads (disk : Disk) : Location → List String → Prop
  | _, [] => True
  | base, name :: rest => disk.isDirectoryAt base = true ∧ disk.Leads (base ++ [name]) rest

theorem Leads.wider (wider : disk.Wider after) (leads : disk.Leads base names) :
    after.Leads base names := by
  induction names generalizing base with
  | nil => trivial
  | cons name rest ih => exact ⟨wider.directories base leads.1, ih leads.2⟩

theorem leads_append {front back : List String} :
    disk.Leads base (front ++ back) ↔
      disk.Leads base front ∧ disk.Leads (base ++ front) back := by
  induction front generalizing base with
  | nil => simp [Leads]
  | cons name rest ih => simp [Leads, ih, and_assoc]

theorem Leads.isDirectoryAt {front back : List String} (leads : disk.Leads base (front ++ back))
    (more : back ≠ []) : disk.isDirectoryAt (base ++ front) = true := by
  obtain ⟨name, rest, rfl⟩ := List.exists_cons_of_ne_nil more
  exact (leads_append.1 leads).2.1

theorem Leads.stay (leads : disk.Leads base names)
    (stays : ∀ front back, front ++ back = names → back ≠ [] →
      disk.isDirectoryAt (base ++ front) = true → after.isDirectoryAt (base ++ front) = true) :
    after.Leads base names := by
  induction names generalizing base with
  | nil => trivial
  | cons name rest ih =>
      have here := stays [] (name :: rest) rfl (by simp)
      rw [List.append_nil] at here
      refine ⟨here leads.1, ih leads.2 fun front back split more directory => ?_⟩
      rw [List.append_assoc, List.singleton_append] at directory ⊢
      exact stays (name :: front) back (by rw [List.cons_append, split]) more directory

theorem Grounded.leads (grounded : disk.Grounded) {node : Node}
    (held : disk.node? (base ++ names) = some node) : disk.Leads base names := by
  induction names using List.reverseRecOn generalizing node with
  | nil => trivial
  | append_singleton front name ih =>
      have around := grounded.isDirectoryAt held
      rw [← List.append_assoc, List.dropLast_concat] at around
      exact leads_append.2 ⟨ih (isDirectoryAt_iff.1 around), around, trivial⟩

theorem walk?_append {front back : List String} :
    disk.walk? base (front ++ back) =
      (disk.walk? base front).bind fun next => disk.walk? next back := by
  induction front generalizing base with
  | nil => rfl
  | cons segment rest ih =>
      simp only [List.cons_append, walk?]
      cases disk.enter? base segment with
      | none => rfl
      | some next => exact ih

theorem enter?_solid {name : String} (solid : Path.isSolid name = true) :
    disk.enter? base name = some location ↔ disk.isDirectoryAt base = true ∧
      (disk.node? (base ++ [name])).isSome = true ∧ location = base ++ [name] := by
  have ⟨busy, level⟩ : Path.isIdle name = false ∧ Path.isUpward name = false := by
    simpa [Path.isSolid] using solid
  unfold enter?
  by_cases directory : disk.isDirectoryAt base = true <;>
    by_cases held : (disk.node? (base ++ [name])).isSome = true <;>
    simp [directory, held, busy, level, eq_comm]

theorem isSome_of_isDirectoryAt (directory : disk.isDirectoryAt location = true) :
    (disk.node? location).isSome = true := by
  rw [isDirectoryAt_iff.1 directory]
  rfl

theorem leads_concat {name : String} : disk.Leads base (names ++ [name]) ↔
    disk.Leads base names ∧ disk.isDirectoryAt (base ++ names) = true := by
  rw [leads_append]
  exact and_congr_right fun _ => and_iff_left trivial

theorem walk?_solid (solid : ∀ name ∈ names, Path.isSolid name = true) :
    disk.walk? base names = some location ↔ disk.Leads base names ∧
      (names ≠ [] → (disk.node? (base ++ names)).isSome = true) ∧ location = base ++ names := by
  induction names using List.reverseRecOn generalizing location with
  | nil => simp only [walk?, Leads, List.append_nil]; grind
  | append_singleton front name ih =>
      have before (next : Location) : disk.walk? base front = some next ↔ _ :=
        ih fun name member => solid name (List.mem_append_left _ member)
      have step (next : Location) : disk.walk? next [name] = disk.enter? next name := by
        simp only [walk?]
        cases disk.enter? next name <;> rfl
      simp only [walk?_append, Option.bind_eq_some_iff, before, step, leads_concat,
        enter?_solid (solid name (by simp)), ← List.append_assoc]
      constructor
      · rintro ⟨_, ⟨leads, -, rfl⟩, directory, held, rfl⟩
        exact ⟨⟨leads, directory⟩, fun _ => held, rfl⟩
      · rintro ⟨⟨leads, directory⟩, held, rfl⟩
        exact ⟨_, ⟨leads, fun _ => isSome_of_isDirectoryAt directory, rfl⟩, directory,
          held (by simp), rfl⟩

def Admits (disk : Disk) (base : Location) (names : List String) : Prop :=
  disk.Leads base names ∧ ∀ name, names.getLast? = some name → Path.isName name = true

theorem Admits.wider (wider : disk.Wider after) (admits : disk.Admits base names) :
    after.Admits base names :=
  ⟨admits.1.wider wider, admits.2⟩

section Within

variable {output path source target : Path} {front back : List String}

theorem Reaches.walk?_lead (reaches : disk.Reaches output root) :
    disk.walk? (disk.start output) (Path.lead output) = some root := by
  have located := reaches.located
  unfold locate? at located
  split at located
  · exact absurd located nofun
  · rcases Path.segments_eq_lead output with same | same
    · rwa [same] at located
    · rw [same, walk?_append] at located
      cases reached : disk.walk? (disk.start output) (Path.lead output) with
      | none => simp [reached] at located
      | some next =>
          rw [reached] at located
          simp only [Option.bind_some, walk?, enter?] at located
          by_cases directory : disk.isDirectoryAt next = true <;>
            simp_all [Path.isIdle]

theorem Reaches.named (reaches : disk.Reaches output root) : output ≠ "" := by
  rintro rfl
  exact absurd reaches.located nofun

theorem Reaches.start (within : Path.Within output names path) :
    disk.start path = disk.start output := by
  unfold Disk.start
  rw [within.absolute]

theorem Reaches.walk? (reaches : disk.Reaches output root)
    (within : Path.Within output names path) (more : List String) :
    disk.walk? (disk.start path) (Path.lead output ++ more) = disk.walk? root more := by
  rw [Reaches.start within, walk?_append, reaches.walk?_lead]
  rfl

theorem locate?_within (reaches : disk.Reaches output root)
    (within : Path.Within output names path) :
    disk.locate? path = some location ↔ disk.Leads root names ∧
      (disk.node? (root ++ names)).isSome = true ∧ location = root ++ names := by
  have named : path.isEmpty = false := by
    simpa using Path.ne_empty_of_solid within.segments within.filled within.solid
  simp only [locate?, named, within.segments, reaches.walk? within, walk?_solid within.solid,
    Bool.false_eq_true, if_false, ne_eq, within.filled, not_false_eq_true, forall_const]

theorem nodeOf?_within (reaches : disk.Reaches output root)
    (within : Path.Within output names path) {node : Node} :
    disk.nodeOf? path = some node ↔
      disk.Leads root names ∧ disk.node? (root ++ names) = some node := by
  simp only [nodeOf?, Option.bind_eq_some_iff, locate?_within reaches within]
  constructor
  · rintro ⟨_, ⟨leads, -, rfl⟩, held⟩
    exact ⟨leads, held⟩
  · rintro ⟨leads, held⟩
    exact ⟨_, ⟨leads, by simp [held], rfl⟩, held⟩

theorem slot?_within (reaches : disk.Reaches output root)
    (within : Path.Within output names path) :
    disk.slot? path = some location ↔ disk.Admits root names ∧ location = root ++ names := by
  obtain ⟨front, name, rfl⟩ : ∃ front name, names = front ++ [name] :=
    ⟨_, _, (List.dropLast_concat_getLast within.filled).symm⟩
  have turned : (Path.segments path).reverse = name :: (Path.lead output ++ front).reverse := by
    simp [within.segments]
  have before := fun member inside => within.solid member (List.mem_append_left [name] inside)
  simp only [slot?, turned, List.reverse_reverse, reaches.walk? within, Admits, leads_concat]
  by_cases fits : Path.isName name = true
  · cases walked : disk.walk? root front with
    | none =>
        have closed : ¬ (disk.Leads root front ∧ disk.isDirectoryAt (root ++ front) = true) := by
          rintro ⟨leads, directory⟩
          have found : disk.walk? root front = some (root ++ front) :=
            (walk?_solid before).2 ⟨leads, fun _ => isSome_of_isDirectoryAt directory, rfl⟩
          rw [walked] at found
          exact absurd found nofun
        simp [fits, closed]
    | some next =>
        obtain ⟨leads, -, rfl⟩ := (walk?_solid before).1 walked
        by_cases directory : disk.isDirectoryAt (root ++ front) = true
        · simp only [fits, directory, leads, List.append_assoc, Bool.not_true, if_true,
            Bool.false_eq_true, if_false, Option.some.injEq, List.getLast?_concat, forall_eq',
            and_self, true_and]
          exact eq_comm
        · simp [fits, directory]
  · simp [fits]

theorem makeAlong_filter (disk : Disk) (base : Location) (names : List String) :
    disk.makeAlong base names = disk.makeAlong base (names.filter (!Path.isIdle ·)) := by
  induction names generalizing disk base with
  | nil => rfl
  | cons name rest ih =>
      by_cases idle : Path.isIdle name = true
      · rw [List.filter_cons_of_neg (by simp [idle]), ← ih]
        by_cases directory : disk.isDirectoryAt base = true
        · simp [makeAlong, enter?, directory, idle]
        · have closed (more : List String) : disk.makeAlong base more = none := by
            cases more <;> simp [makeAlong, enter?, directory]
          rw [closed, closed]
      · rw [List.filter_cons_of_pos (by simp [idle])]
        simp only [makeAlong, ih]

theorem makeAlong_of_walk? (walked : disk.walk? base front = some location)
    (back : List String) : disk.makeAlong base (front ++ back) = disk.makeAlong location back := by
  induction front generalizing base with
  | nil => rw [Option.some.inj walked, List.nil_append]
  | cons segment rest ih =>
      simp only [walk?] at walked
      simp only [List.cons_append, makeAlong]
      cases entered : disk.enter? base segment with
      | none => simp [entered] at walked
      | some next =>
          rw [entered] at walked
          exact ih walked

theorem makeDirectories_parent (reaches : disk.Reaches output root)
    (within : Path.Within output names path) :
    ∃ parent, Path.parent? path = some parent ∧
      makeDirectories parent disk = disk.makeAlong root names.dropLast := by
  obtain ⟨front, name, rfl⟩ : ∃ front name, names = front ++ [name] :=
    ⟨_, _, (List.dropLast_concat_getLast within.filled).symm⟩
  have busy : Path.isIdle name = false := by
    have solid := within.solid name (by simp)
    simp only [Path.isSolid, Bool.and_eq_true, Bool.not_eq_true'] at solid
    exact solid.1
  have split : Path.segments path = (Path.lead output ++ front) ++ [name] := by
    rw [within.segments, List.append_assoc]
  obtain ⟨parent, found, named, absolute, kept⟩ :=
    Path.exists_parent split (by simp [Path.lead_ne_nil]) busy
  refine ⟨parent, found, ?_⟩
  have filled : parent.isEmpty = false := by simpa using named
  have begins : disk.start parent = disk.start path := by
    unfold start
    rw [absolute]
  rw [makeDirectories, filled, begins, Reaches.start within, makeAlong_filter, kept,
    ← makeAlong_filter, List.dropLast_concat]
  exact makeAlong_of_walk? reaches.walk?_lead front

theorem isFile_within (reaches : disk.Reaches output root)
    (within : Path.Within output names path) :
    disk.isFile path = true ↔
      disk.Leads root names ∧ (disk.file? (root ++ names)).isSome = true := by
  have file : disk.isFile path = true ↔ ∃ contents, disk.nodeOf? path = some (.file contents) := by
    unfold isFile
    split <;> simp_all
  simp only [file, nodeOf?_within reaches within, Option.isSome_iff_exists, file?_eq_some_iff,
    exists_and_left]

theorem moveFile_within (reaches : disk.Reaches output root)
    (leaves : Path.Within output front source) (enters : Path.Within output back target) :
    moveFile source target disk = some after ↔ ∃ contents, disk.Leads root front ∧
      disk.file? (root ++ front) = some contents ∧ disk.Admits root back ∧
      disk.isDirectoryAt (root ++ back) = false ∧
      after = (disk.erase (root ++ front)).put (root ++ back) (.file contents) := by
  simp only [moveFile, file?_eq_some_iff]
  constructor
  · intro moved
    split at moved
    · next origin location located found =>
        obtain ⟨leads, -, rfl⟩ := (locate?_within reaches leaves).1 located
        obtain ⟨admits, rfl⟩ := (slot?_within reaches enters).1 found
        split at moved
        · next contents held =>
            by_cases directory : disk.isDirectoryAt (root ++ back) = true
            · simp [directory] at moved
            · simp only [directory, Bool.false_eq_true, if_false, Option.some.injEq] at moved
              exact ⟨contents, leads, held, admits, by simpa using directory, moved.symm⟩
        · exact absurd moved nofun
    · exact absurd moved nofun
  · rintro ⟨contents, leads, held, admits, free, rfl⟩
    rw [(locate?_within reaches leaves).2 ⟨leads, by simp [held], rfl⟩,
      (slot?_within reaches enters).2 ⟨admits, rfl⟩]
    simp [held, free]

theorem writeFile_within (reaches : disk.Reaches output root)
    (within : Path.Within output names path) {contents : ByteArray} :
    writeFile path contents disk = some after ↔ disk.Admits root names ∧
      disk.isDirectoryAt (root ++ names) = false ∧
      after = disk.put (root ++ names) (.file contents) := by
  simp only [writeFile]
  cases found : disk.slot? path with
  | none =>
      have closed : ¬ disk.Admits root names := fun admits => by
        simp [(slot?_within reaches within).2 ⟨admits, rfl⟩] at found
      simp [closed]
  | some location =>
      obtain ⟨admits, rfl⟩ := (slot?_within reaches within).1 found
      by_cases directory : disk.isDirectoryAt (root ++ names) = true <;>
        simp [directory, admits, eq_comm]

theorem removeFile_within (reaches : disk.Reaches output root)
    (within : Path.Within output names path) :
    removeFile path disk = some after ↔ disk.Leads root names ∧
      (disk.file? (root ++ names)).isSome = true ∧ after = disk.erase (root ++ names) := by
  simp only [removeFile, Option.isSome_iff_exists, file?_eq_some_iff]
  constructor
  · intro removed
    split at removed
    · exact absurd removed nofun
    · next located =>
        obtain ⟨leads, -, rfl⟩ := (locate?_within reaches within).1 located
        split at removed
        · next contents held => exact ⟨leads, ⟨contents, held⟩, (Option.some.inj removed).symm⟩
        · exact absurd removed nofun
  · rintro ⟨leads, ⟨contents, held⟩, rfl⟩
    rw [(locate?_within reaches within).2 ⟨leads, by simp [held], rfl⟩]
    simp [held]

theorem removeTree_within (reaches : disk.Reaches output root)
    (within : Path.Within output names path) :
    removeTree path disk = some after ↔ disk.Leads root names ∧
      disk.isDirectoryAt (root ++ names) = true ∧ after = disk.eraseTree (root ++ names) := by
  simp only [removeTree]
  constructor
  · intro removed
    split at removed
    · exact absurd removed nofun
    · next located =>
        obtain ⟨leads, -, rfl⟩ := (locate?_within reaches within).1 located
        by_cases directory : disk.isDirectoryAt (root ++ names) = true
        · simp only [directory, Bool.and_true] at removed
          split at removed
          · exact ⟨leads, directory, (Option.some.inj removed).symm⟩
          · exact absurd removed nofun
        · simp [directory] at removed
  · rintro ⟨leads, directory, rfl⟩
    rw [(locate?_within reaches within).2 ⟨leads, isSome_of_isDirectoryAt directory, rfl⟩]
    simp [directory, within.filled]

end Within

/-- Nothing is changed but that directories are made where the names lead and nothing was. -/
structure Makes (base : Location) (names : List String) (disk after : Disk) : Prop where
  current : after.current = disk.current
  nodes : ∀ location, after.node? location = disk.node? location ∨
    disk.node? location = none ∧ after.node? location = some .directory ∧
      ∃ inner, inner ≠ [] ∧ inner <+: names ∧ location = base ++ inner

theorem Makes.refl (disk : Disk) : Makes base names disk disk := ⟨rfl, fun _ => .inl rfl⟩

theorem makes_of_makeAlong (made : disk.makeAlong base names = some after)
    (solid : ∀ name ∈ names, Path.isSolid name = true) : Makes base names disk after := by
  induction names generalizing disk base with
  | nil =>
      simp only [makeAlong] at made
      split at made
      · rw [← Option.some.inj made]
        exact .refl disk
      · exact absurd made nofun
  | cons name rest ih =>
      have later : ∀ member ∈ rest, Path.isSolid member = true := fun member inside =>
        solid member (List.mem_cons_of_mem _ inside)
      have deeper {inner : List String} (sub : inner <+: rest) :
          ∃ outer, outer ≠ [] ∧ outer <+: name :: rest ∧ base ++ [name] ++ inner = base ++ outer :=
        ⟨name :: inner, by simp, by simpa using sub, by simp⟩
      simp only [makeAlong] at made
      split at made
      · next next entered =>
          obtain ⟨-, -, rfl⟩ := (enter?_solid (solid name List.mem_cons_self)).1 entered
          have made := ih made later
          refine ⟨made.current, fun location => (made.nodes location).imp id ?_⟩
          rintro ⟨none, directory, inner, -, sub, rfl⟩
          exact ⟨none, directory, deeper sub⟩
      · next blocked =>
          by_cases fits : (disk.isDirectoryAt base && Path.isName name) = true
          · rw [if_pos fits] at made
            simp only [Bool.and_eq_true] at fits
            have missing : disk.node? (base ++ [name]) = none := by
              by_contra held
              have entered := (enter?_solid (solid name List.mem_cons_self)).2
                ⟨fits.1, Option.isSome_iff_ne_none.2 held, rfl⟩
              rw [blocked] at entered
              exact absurd entered nofun
            have made := ih made later
            have put (location : Location) := node?_put disk location .directory
              (List.append_ne_nil_of_right_ne_nil base (List.cons_ne_nil name []))
            refine ⟨made.current, fun location => ?_⟩
            by_cases here : location = base ++ [name]
            · have same : after.node? location = some .directory := by
                rcases made.nodes location with same | ⟨none, -, -⟩
                · rw [same, put, if_pos here]
                · rw [put, if_pos here] at none
                  exact absurd none nofun
              exact .inr ⟨here ▸ missing, same, [name], by simp, by simp, here⟩
            · have other := made.nodes location
              rw [put, if_neg here] at other
              refine other.imp id ?_
              rintro ⟨none, directory, inner, -, sub, rfl⟩
              exact ⟨none, directory, deeper sub⟩
          · rw [if_neg fits] at made
            exact absurd made nofun

theorem Makes.wider (makes : Makes base names disk after) : disk.Wider after := by
  refine ⟨makes.current, fun location directory => ?_⟩
  rcases makes.nodes location with same | ⟨none, -, -⟩
  · simpa [isDirectoryAt, same] using directory
  · simp [isDirectoryAt, none] at directory

theorem Makes.file? (makes : Makes base names disk after) (location : Location) :
    after.file? location = disk.file? location := by
  rcases makes.nodes location with same | ⟨none, made, -⟩
  · exact file?_congr same
  · simp [Disk.file?, none, made]

theorem wider_put {contents : ByteArray} (inner : location ≠ [])
    (free : disk.isDirectoryAt location = false) :
    disk.Wider (disk.put location (.file contents)) := by
  refine ⟨rfl, fun other directory => ?_⟩
  have apart : other ≠ location := by
    rintro rfl
    rw [free] at directory
    exact absurd directory nofun
  simpa [isDirectoryAt, node?_put disk other _ inner, apart] using directory

theorem wider_erase (inner : location ≠ []) (free : disk.isDirectoryAt location = false) :
    disk.Wider (disk.erase location) := by
  refine ⟨rfl, fun other directory => ?_⟩
  have apart : other ≠ location := by
    rintro rfl
    rw [free] at directory
    exact absurd directory nofun
  simpa [isDirectoryAt, node?_erase disk other inner, apart] using directory

theorem isDirectoryAt_of_file? {contents : ByteArray} (held : disk.file? location = some contents) :
    disk.isDirectoryAt location = false := by
  simp [isDirectoryAt, file?_eq_some_iff.1 held]

theorem erase_wider (disk : Disk) (inner : location ≠ []) : (disk.erase location).Wider disk := by
  refine ⟨rfl, fun other directory => ?_⟩
  rw [isDirectoryAt_iff, node?_erase _ _ inner] at directory
  split_ifs at directory
  rwa [isDirectoryAt_iff]

theorem eraseTree_wider (disk : Disk) (inner : location ≠ []) :
    (disk.eraseTree location).Wider disk := by
  refine ⟨rfl, fun other directory => ?_⟩
  rw [isDirectoryAt_iff, node?_eraseTree _ _ inner] at directory
  split_ifs at directory
  rwa [isDirectoryAt_iff]

section Move

variable {source target : Location} {contents : ByteArray}

theorem node?_move (disk : Disk) (other : Location) (contents : ByteArray) (inner : source ≠ [])
    (inner' : target ≠ []) :
    ((disk.erase source).put target (.file contents)).node? other =
      if other = target then some (.file contents)
      else if other = source then none else disk.node? other := by
  rw [node?_put _ _ _ inner', node?_erase _ _ inner]

theorem file?_move (disk : Disk) (other : Location) (contents : ByteArray) (inner : source ≠ [])
    (inner' : target ≠ []) :
    ((disk.erase source).put target (.file contents)).file? other =
      if other = target then some contents
      else if other = source then none else disk.file? other := by
  rw [file?_put _ _ _ inner', file?_erase _ _ inner]

theorem wider_move (inner : source ≠ []) (inner' : target ≠ [])
    (held : disk.file? source = some contents) (free : disk.isDirectoryAt target = false) :
    disk.Wider ((disk.erase source).put target (.file contents)) := by
  apply (wider_erase inner (isDirectoryAt_of_file? held)).trans
  apply wider_put inner'
  simp only [isDirectoryAt, node?_erase _ _ inner, decide_eq_false_iff_not] at free ⊢
  split_ifs
  · exact nofun
  · exact free

end Move

end Disk

end Elastic
