import Elastic.Package.Write
import Elastic.Proofs.Package.Regions

namespace Elastic

open Disk Commit

namespace Storing

variable {volume : Volume} {output path : Path} {root : Location} {names : List String}
variable {good : Unit → Volume → Prop} {bad : BuildError → Volume → Prop}

/-! Calls that are refused leave the disk as it was, so what holds of it has to hold of no other
disk. -/

theorem ends_call {operation : Disk → Option Disk}
    (refused : ∀ error rest, bad error { volume with refusals := rest })
    (done : ∀ after rest, operation volume.disk = some after →
      good () { volume with disk := after, refusals := rest }) :
    Ends (call path operation) volume good bad := by
  have run : (call path operation).run.run volume = call path operation volume := rfl
  unfold Ends
  rw [run]
  simp only [call]
  cases attempt : if volume.refusals.headD false then none else operation volume.disk with
  | none => exact refused (.io path) _
  | some after =>
      split at attempt
      · exact absurd attempt nofun
      · exact done after _ attempt

/-- A question has its answer, or the fallback where a query to come may fail. -/
theorem ends_ask {α : Type} {fallback : α} {question : Disk → α} {good : α → Volume → Prop}
    (answered : good (question volume.disk) { volume with unanswered := volume.unanswered.tail })
    (lapsed : true ∈ volume.unanswered →
      good fallback { volume with unanswered := volume.unanswered.tail }) :
    Ends (ask fallback question) volume good bad := by
  have run : (ask fallback question).run.run volume =
      (.ok (if volume.unanswered.headD false then fallback else question volume.disk),
        { volume with unanswered := volume.unanswered.tail }) := rfl
  unfold Ends
  rw [run]
  dsimp only
  split_ifs with fails
  · apply lapsed
    cases unanswered : volume.unanswered with
    | nil => simp [unanswered] at fails
    | cons first rest =>
        obtain rfl : first = true := by simpa [unanswered] using fails
        exact List.mem_cons_self
  · exact answered

theorem ends_answer {α : Type} {fallback : α} {question : Disk → α} {good : α → Volume → Prop}
    (either : ∀ answer,
      answer = question volume.disk ∨ true ∈ volume.unanswered ∧ answer = fallback →
      good answer { volume with unanswered := volume.unanswered.tail }) :
    Ends (ask fallback question) volume good bad :=
  ends_ask (either _ (.inl rfl)) fun fails => either _ (.inr ⟨fails, rfl⟩)

theorem ends_makeParent (reaches : volume.disk.Reaches output root)
    (within : Path.Within output names path)
    (refused : ∀ error rest, bad error { volume with refusals := rest })
    (done : ∀ after rest, Makes root names.dropLast volume.disk after →
      good () { volume with disk := after, refusals := rest }) :
    Ends (makeParent path) volume good bad := by
  obtain ⟨parent, found, made⟩ := makeDirectories_parent reaches within
  simp only [makeParent, found]
  apply ends_call refused
  intro after rest making
  apply done
  rw [made] at making
  exact makes_of_makeAlong making fun name member =>
    within.solid name ((List.dropLast_sublist names).subset member)

theorem ends_store {contents : ByteArray} (reaches : volume.disk.Reaches output root)
    (within : Path.Within output names path)
    (refused : ∀ made error rest, Makes root names.dropLast volume.disk made →
      bad error { volume with disk := made, refusals := rest })
    (done : ∀ made rest, Makes root names.dropLast volume.disk made → made.Admits root names →
      made.isDirectoryAt (root ++ names) = false →
      good () { volume with disk := made.put (root ++ names) (.file contents), refusals := rest }) :
    Ends (store path contents) volume good bad := by
  apply Ends.bind_iff.2
  apply ends_makeParent reaches within
  · exact fun error rest => refused _ error rest (.refl _)
  · intro made rest makes
    apply ends_call
    · exact fun error rest => refused made error rest makes
    · intro after rest written
      obtain ⟨admits, free, rfl⟩ :=
        (writeFile_within (makes.wider.reaches reaches) within).1 written
      exact done made rest makes admits free

end Storing

/-- Queries to come fail under a condition only. -/
def Volume.LapsesOnlyIf (lapse : Prop) (volume : Volume) : Prop :=
  true ∈ volume.unanswered → lapse

theorem Volume.LapsesOnlyIf.tail {lapse : Prop} {volume : Volume}
    (lapses : volume.LapsesOnlyIf lapse) :
    { volume with unanswered := volume.unanswered.tail }.LapsesOnlyIf lapse :=
  fun fails => lapses (List.mem_of_mem_tail fails)

namespace Storing

variable {α β : Type} {path : Path} {lapse : Prop} {operation : Disk → Option Disk}

theorem maintains_ask_bind {invariant : Volume → Prop} {fallback : α} {question : Disk → α}
    {next : α → Storing β}
    (tail : ∀ volume, invariant volume →
      invariant { volume with unanswered := volume.unanswered.tail })
    (answered : ∀ disk, Maintains invariant (next (question disk)))
    (lapsed : Maintains invariant (next fallback)) :
    Maintains invariant (ask fallback question >>= next) :=
  fun volume holds => Ends.bind_iff.2 (ends_ask (answered volume.disk _ (tail volume holds))
    fun _ => lapsed _ (tail volume holds))

theorem maintains_call_lapses : Maintains (Volume.LapsesOnlyIf lapse) (call path operation) :=
  fun _ lapses => ends_call (fun _ _ => lapses) fun _ _ _ => lapses

theorem maintains_makeParent_lapses : Maintains (Volume.LapsesOnlyIf lapse) (makeParent path) := by
  unfold makeParent
  split
  · exact Maintains.pure _
  · exact maintains_call_lapses

theorem maintains_store_lapses {contents : ByteArray} :
    Maintains (Volume.LapsesOnlyIf lapse) (store path contents) :=
  maintains_makeParent_lapses.bind fun _ => maintains_call_lapses

theorem maintains_clear_lapses :
    Maintains (Volume.LapsesOnlyIf lapse) (do
      if ← ask false fun disk => disk.pathExists path then
        call path (Disk.removeTree path)) :=
  maintains_ask_bind (fun _ lapses => lapses.tail)
    (fun _ => Maintains.ite maintains_call_lapses (Maintains.pure _)) (Maintains.pure _)

end Storing

namespace Commit

variable {disk before after : Disk} {root location : Location} {output : Path}

def bare (root : Location) (disk : Disk) : Disk :=
  (disk.eraseTree (root ++ [stagingName])).eraseTree (root ++ [backupName])

theorem node?_bare (root location : Location) (disk : Disk) :
    (bare root disk).node? location =
      if root ++ [stagingName] <+: location ∨ root ++ [backupName] <+: location then none
      else disk.node? location := by
  unfold bare
  rw [node?_eraseTree _ _ (by simp), node?_eraseTree _ _ (by simp)]
  split_ifs <;> simp_all

theorem wider_bare (root : Location) (disk : Disk) : (bare root disk).Wider disk :=
  (eraseTree_wider _ (by simp)).trans (eraseTree_wider _ (by simp))

theorem leads_bare {path : Path} (placeable : Placeable path)
    (leads : disk.Leads root (Region.home.spot path)) :
    (bare root disk).Leads root (Region.home.spot path) := by
  apply leads.stay
  intro front back split more directory
  rw [isDirectoryAt_iff, node?_bare, if_neg, isDirectoryAt_iff.1 directory]
  have outside : isInternal (Region.home.spot path) = false := placeable.outside
  obtain ⟨name, rest, rfl⟩ := List.exists_cons_of_ne_nil more
  rintro (inside | inside) <;>
    obtain ⟨deeper, rfl⟩ := (List.prefix_append_right_inj root).1 inside <;>
    cases deeper <;> simp [← split, isInternal, internalNames] at outside

/-- Where nothing has changed but what lies in a directory of the output directory. -/
structure Confined (root : Location) (name : String) (before after : Disk) : Prop where
  current : after.current = before.current
  nodes : ∀ location, ¬ root ++ [name] <+: location →
    after.node? location = before.node? location
  spot : after.file? (root ++ [name]) = before.file? (root ++ [name])

namespace Confined

variable {name : String}

theorem refl (root : Location) (name : String) (disk : Disk) : Confined root name disk disk :=
  ⟨rfl, fun _ _ => rfl, rfl⟩

theorem trans {last : Disk} (first : Confined root name before after)
    (second : Confined root name after last) : Confined root name before last where
  current := second.current.trans first.current
  nodes location outside := (second.nodes location outside).trans (first.nodes location outside)
  spot := second.spot.trans first.spot

theorem file? (confined : Confined root name before after) (internal : name ∈ internalNames)
    (outside : ¬ Internal root location) : after.file? location = before.file? location := by
  by_cases inside : root ++ [name] <+: location
  · obtain ⟨rest, rfl⟩ := inside
    cases rest with
    | nil => simpa using confined.spot
    | cons segment rest =>
        refine absurd ⟨name :: segment :: rest, ?_, ?_⟩ outside
        · simpa [isInternal] using internal
        · simp
  · exact file?_congr (confined.nodes location inside)

theorem wider (confined : Confined root name before after) (internal : name ∈ internalNames)
    (wider : (bare root disk).Wider before) : (bare root disk).Wider after := by
  refine ⟨confined.current.trans wider.current, fun location directory => ?_⟩
  have stays := wider.directories location directory
  rw [isDirectoryAt_iff, node?_bare] at directory
  split_ifs at directory with inside
  rw [isDirectoryAt_iff] at stays ⊢
  rw [confined.nodes location _, stays]
  intro within
  simp only [internalNames, List.mem_cons, List.not_mem_nil, or_false] at internal
  rcases internal with rfl | rfl
  · exact inside (.inl within)
  · exact inside (.inr within)

theorem eraseTree (directory : disk.isDirectoryAt (root ++ [name]) = true) :
    Confined root name disk (disk.eraseTree (root ++ [name])) where
  current := rfl
  nodes location outside := by
    rw [node?_eraseTree _ _ (by simp), if_neg outside]
  spot := by
    rw [file?_of_isDirectoryAt directory]
    simp [Disk.file?, node?_eraseTree]

theorem ends_clear {volume : Volume} {path : Path} (reaches : volume.disk.Reaches output root)
    (within : Path.Within output [name] path) :
    Ends (do
        if ← Storing.ask false fun disk => disk.pathExists path then
          Storing.call path (Disk.removeTree path)) volume
      (fun _ after => Confined root name volume.disk after.disk)
      (fun _ after => after.disk = volume.disk) := by
  apply Ends.bind_iff.2
  apply Storing.ends_ask
  · apply Ends.ite
    · intro _
      apply Storing.ends_call
      · exact fun _ _ => rfl
      · intro after rest removed
        obtain ⟨-, directory, rfl⟩ := (removeTree_within reaches within).1 removed
        exact eraseTree directory
    · exact fun _ => Ends.pure_iff.2 (.refl root name _)
  · exact fun _ => Ends.pure_iff.2 (.refl root name _)

theorem makes {made : Disk} {path : Path} (staged : Confined root stagingName before after)
    (makes : Makes root (Region.staging.spot path).dropLast after made) :
    Confined root stagingName before made where
  current := makes.current.trans staged.current
  nodes location outside := by
    rcases makes.nodes location with same | ⟨-, -, inner, filled, sub, rfl⟩
    · rw [same]
      exact staged.nodes location outside
    · obtain ⟨name, rest, rfl⟩ := List.exists_cons_of_ne_nil filled
      have first : name = stagingName := by
        simpa [Region.spot, Region.names] using
          (List.cons_prefix_cons.1 (sub.trans (List.dropLast_prefix _))).1
      refine absurd ?_ outside
      simp [first]
  spot := (makes.file? _).trans staged.spot

theorem put {path : Path} {contents : ByteArray} (staged : Confined root stagingName before after) :
    Confined root stagingName before
      (after.put (Region.staging.location root path) (.file contents)) where
  current := staged.current
  nodes location outside := by
    rw [node?_put _ _ _ (Region.location_ne_nil _ _ _), if_neg]
    · exact staged.nodes location outside
    · rintro rfl
      exact outside (by simp [Region.location, Region.spot, Region.names])
  spot := by
    rw [file?_put _ _ _ (Region.location_ne_nil _ _ _), if_neg]
    · exact staged.spot
    · intro same
      have empty : Path.segments path = [] := by
        simpa [Region.location, Region.spot, Region.names] using same
      exact Path.segments_ne_nil path empty

end Confined

end Commit

namespace Package

variable {disk before after : Disk} {root : Location} {output : Path} {volume : Volume}
variable {artifact other : Artifact}

structure Held (root : Location) (disk : Disk) (artifact : Artifact) : Prop where
  contents : disk.file? (Region.staging.location root artifact.path) = some artifact.contents
  leads : disk.Leads root (Region.staging.spot artifact.path)

theorem Held.makes {names : List String} (held : Held root before artifact)
    (makes : Makes root names before after) : Held root after artifact :=
  ⟨(makes.file? _).trans held.contents, held.leads.wider makes.wider⟩

theorem Held.put {path : Path} {contents : ByteArray} (held : Held root before artifact)
    (placeable : Placeable path) (placeable' : Placeable artifact.path)
    (apart : artifact.path ≠ path)
    (free : before.isDirectoryAt (Region.staging.location root path) = false) :
    Held root (before.put (Region.staging.location root path) (.file contents)) artifact where
  contents := by
    rw [file?_put _ _ _ (Region.location_ne_nil _ _ _), if_neg]
    · exact held.contents
    · exact fun same => apart (Region.location_injective placeable' placeable same).2
  leads := held.leads.wider (wider_put (Region.location_ne_nil _ _ _) free)

theorem held_put (admits : before.Admits root (Region.staging.spot artifact.path))
    (free : before.isDirectoryAt (Region.staging.location root artifact.path) = false) :
    Held root (before.put (Region.staging.location root artifact.path) (.file artifact.contents))
      artifact where
  contents := by
    rw [file?_put _ _ _ (Region.location_ne_nil _ _ _), if_pos rfl]
  leads := admits.1.wider (wider_put (Region.location_ne_nil _ _ _) free)

theorem Held.cleared (held : Held root before artifact)
    (cleared : Confined root backupName before after) : Held root after artifact where
  contents := by
    rw [← held.contents]
    apply file?_congr (cleared.nodes _ _)
    rw [Region.location, List.prefix_append_right_inj]
    simp [Region.spot, Region.names, backupName, stagingName]
  leads := by
    apply held.leads.stay
    intro front back split more directory
    rw [isDirectoryAt_iff] at directory ⊢
    rw [cleared.nodes _ _, directory]
    intro inside
    obtain ⟨deeper, rfl⟩ := (List.prefix_append_right_inj root).1 inside
    simp [Region.spot, Region.names, backupName, stagingName] at split

theorem Held.clear (held : Held root disk artifact) (held' : Held root disk other) :
    ¬ Region.home.spot artifact.path <+: (Region.home.spot other.path).dropLast := by
  rintro ⟨more, split⟩
  have last := List.dropLast_concat_getLast (Region.home.spot_ne_nil other.path)
  rw [← split, List.append_assoc] at last
  have way : Region.staging.spot other.path = Region.staging.spot artifact.path ++
      (more ++ [(Region.home.spot other.path).getLast (Region.home.spot_ne_nil other.path)]) := by
    have spot (path : Path) :
        Region.staging.spot path = stagingName :: Region.home.spot path := rfl
    rw [spot, spot, List.cons_append, last]
  have leads := held'.leads
  rw [way] at leads
  have directory := leads.isDirectoryAt (by simp)
  exact absurd ((isDirectoryAt_of_file? held.contents).symm.trans directory) nofun

theorem ends_store (artifact : Artifact) {done : List Artifact}
    (reaches : (bare root before).Reaches output root)
    (placeable : ∀ held ∈ artifact :: done, Placeable held.path)
    (fresh : artifact.path ∉ done.map (·.path))
    (staged : Confined root stagingName before volume.disk)
    (held : ∀ artifact ∈ done, Held root volume.disk artifact) :
    Ends (Storing.store (Path.join (Commit.staging output) artifact.path) artifact.contents) volume
      (fun _ after => Confined root stagingName before after.disk ∧
        ∀ held ∈ artifact :: done, Held root after.disk held)
      (fun _ after => Confined root stagingName before after.disk) := by
  have own := placeable artifact List.mem_cons_self
  have within := Region.within reaches.named .staging own
  have leads := (staged.wider stagingName_internal (wider_bare root before)).reaches reaches
  apply Storing.ends_store leads within
  · exact fun made error rest makes => staged.makes makes
  · intro made rest makes admits free
    refine ⟨(staged.makes makes).put, fun member inside => ?_⟩
    rcases List.mem_cons.1 inside with rfl | earlier
    · exact held_put admits free
    · apply ((held member earlier).makes makes).put own (placeable member inside) _ free
      exact fun same => fresh (List.mem_map.2 ⟨member, earlier, same⟩)

theorem ends_stageEach (reaches : (bare root before).Reaches output root)
    {done artifacts : List Artifact} {volume : Volume}
    (placeable : ∀ artifact ∈ artifacts ++ done, Placeable artifact.path)
    (distinct : ((artifacts ++ done).map (·.path)).Nodup)
    (staged : Confined root stagingName before volume.disk)
    (held : ∀ artifact ∈ done, Held root volume.disk artifact) :
    Ends (stageEach (Commit.staging output) artifacts) volume
      (fun _ after => Confined root stagingName before after.disk ∧
        ∀ artifact ∈ artifacts ++ done, Held root after.disk artifact)
      (fun _ after => Confined root stagingName before after.disk) := by
  induction artifacts generalizing done volume with
  | nil => exact Ends.pure_iff.2 ⟨staged, held⟩
  | cons artifact rest ih =>
      have moved : (rest ++ artifact :: done).Perm (artifact :: rest ++ done) :=
        List.perm_middle
      have placeable' : ∀ held ∈ rest ++ artifact :: done, Placeable held.path :=
        fun held member => placeable held (moved.mem_iff.1 member)
      have distinct' : ((rest ++ artifact :: done).map (·.path)).Nodup :=
        ((moved.map _).nodup_iff).2 distinct
      have fresh : artifact.path ∉ done.map (·.path) := by
        rw [List.map_append, List.map_cons] at distinct'
        exact (List.nodup_cons.1 (List.nodup_append.1 distinct').2.1).1
      rw [stageEach]
      apply Ends.ite
      · exact fun _ => Ends.throw_bind staged
      · intro _
        apply Ends.bind (ends_store artifact reaches (fun held member => placeable' held
          (List.mem_append_right _ member)) fresh staged held)
        · rintro ⟨⟩ after ⟨staged, held⟩
          exact (ih placeable' distinct' staged held).mono
            (fun _ _ both => ⟨both.1, fun held member => both.2 held (moved.mem_iff.2 member)⟩)
            fun _ _ staged => staged
        · exact fun _ _ staged => staged

theorem ends_clearStaging (reaches : (bare root before).Reaches output root)
    (staged : Confined root stagingName before volume.disk) :
    Ends (clearStaging (Commit.staging output)) volume
      (fun _ after => Confined root stagingName before after.disk)
      (fun _ after => Confined root stagingName before after.disk) := by
  have reached := (staged.wider stagingName_internal (wider_bare root before)).reaches reaches
  apply (Confined.ends_clear reached (Region.within_staging reached.named)).mono
  · exact fun _ _ cleared => staged.trans cleared
  · rintro _ after same
    rwa [same]

def indexFile (system : String) (artifacts : List Artifact) : Artifact :=
  ⟨PackageIndex.fileName, (PackageIndex.ofFiles system (artifacts.map packaged)).text.toUTF8⟩

theorem stage_eq (system : String) (artifacts : List Artifact) (staging : Path) :
    stage system artifacts staging = (do
      clearStaging staging
      stageEach staging artifacts
      Storing.store (Path.join staging (indexFile system artifacts).path)
        (indexFile system artifacts).contents
      return artifacts.map packaged) := by
  unfold stage indexFile
  rfl

theorem ends_stageWith (index : Artifact) {artifacts : List Artifact} {files : List PackagedFile}
    (reaches : (bare root volume.disk).Reaches output root)
    (placeable : ∀ artifact ∈ index :: artifacts, Placeable artifact.path)
    (distinct : ((index :: artifacts).map (·.path)).Nodup) :
    Ends (do
        clearStaging (Commit.staging output)
        stageEach (Commit.staging output) artifacts
        Storing.store (Path.join (Commit.staging output) index.path) index.contents
        return files) volume
      (fun found after => found = files ∧ Confined root stagingName volume.disk after.disk ∧
        ∀ artifact ∈ index :: artifacts, Held root after.disk artifact)
      (fun _ after => Confined root stagingName volume.disk after.disk) := by
  have distinct' := List.nodup_cons.1 distinct
  apply Ends.bind (ends_clearStaging reaches (Confined.refl root stagingName volume.disk))
  · intro _ after staged
    have each := ends_stageEach reaches
      (by simpa using fun artifact member => placeable artifact (List.mem_cons_of_mem _ member))
      (by simpa using distinct'.2) staged (List.forall_mem_nil _)
    apply Ends.bind each
    · rintro _ after ⟨staged, held⟩
      rw [List.append_nil] at held
      apply Ends.bind (ends_store index reaches placeable distinct'.1 staged held)
      · exact fun _ after both => Ends.pure_iff.2 ⟨rfl, both⟩
      · exact fun _ _ staged => staged
    · exact fun _ _ staged => staged
  · exact fun _ _ staged => staged

theorem ends_stage (system : String) {artifacts : List Artifact}
    (reaches : (bare root volume.disk).Reaches output root)
    (placeable : ∀ artifact ∈ artifacts, Placeable artifact.path)
    (distinct : ((indexFile system artifacts :: artifacts).map (·.path)).Nodup) :
    Ends (stage system artifacts (Commit.staging output)) volume
      (fun files after => files = artifacts.map packaged ∧
        Confined root stagingName volume.disk after.disk ∧
        ∀ artifact ∈ indexFile system artifacts :: artifacts, Held root after.disk artifact)
      (fun _ after => Confined root stagingName volume.disk after.disk) := by
  rw [stage_eq]
  exact ends_stageWith (indexFile system artifacts) reaches
    (List.forall_mem_cons.2 ⟨placeable_fileName, placeable⟩) distinct

theorem maintains_stageEach {lapse : Prop} (staging : Path) (artifacts : List Artifact) :
    Maintains (Volume.LapsesOnlyIf lapse) (stageEach staging artifacts) := by
  induction artifacts with
  | nil => exact Maintains.pure _
  | cons artifact rest induction =>
      exact Maintains.ite (Maintains.throw_bind _)
        (Storing.maintains_store_lapses.bind fun _ => induction)

theorem maintains_stage {lapse : Prop} (system : String) (artifacts : List Artifact)
    (staging : Path) : Maintains (Volume.LapsesOnlyIf lapse) (stage system artifacts staging) := by
  rw [stage_eq]
  exact Storing.maintains_clear_lapses.bind fun _ =>
    (maintains_stageEach staging artifacts).bind fun _ =>
      Storing.maintains_store_lapses.bind fun _ => Maintains.pure _

end Package

end Elastic
