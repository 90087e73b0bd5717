import Elastic.Proofs.Disk.Spellings
import Elastic.Proofs.Package.Moving

namespace Elastic

open Disk

/-! What the steps of a commit do to the files of an output directory. Only the names that a path
spells count, so this holds of every path that an artifact or an index entry can have. -/

namespace Commit

variable {root : Location} {output path : Path} {disk after : Disk} {commit : Commit}
  {names source target : List String}

namespace Region

theorem base_ne_empty (named : output ≠ "") (region : Region) : region.base output ≠ "" := by
  cases region with
  | home => exact named
  | staging =>
      have within := within_staging named
      exact Path.ne_empty_of_solid within.segments within.filled within.solid
  | backup =>
      have within := within_backup named
      exact Path.ne_empty_of_solid within.segments within.filled within.solid

theorem lead_base (named : output ≠ "") (region : Region) :
    Path.lead (region.base output) = Path.lead output ++ region.names := by
  cases region with
  | home => exact (List.append_nil _).symm
  | staging =>
      have within := within_staging named
      exact Path.lead_of_solid within.segments within.filled within.solid
  | backup =>
      have within := within_backup named
      exact Path.lead_of_solid within.segments within.filled within.solid

theorem isAbsolute_base (named : output ≠ "") (region : Region) :
    Path.isAbsolute (region.base output) = Path.isAbsolute output := by
  cases region with
  | home => rfl
  | staging => exact (within_staging named).absolute
  | backup => exact (within_backup named).absolute

theorem segments_join (named : output ≠ "") (region : Region)
    (relative : Path.isAbsolute path = false) :
    Path.segments (Path.join (region.base output) path) =
      Path.lead output ++ region.names ++ Path.segments path := by
  rw [Path.segments_join (base_ne_empty named region) relative, lead_base named region]

def plain (output : Path) (region : Region) (names : List String) : Path :=
  Path.join output (Path.ofSegments (region.names ++ names))

theorem solid_names (region : Region) (spells : Path.Spells names path) :
    ∀ name ∈ region.names ++ names, Path.isSolid name = true := by
  have own : ∀ name ∈ region.names, Path.isSolid name = true := by
    cases region <;> decide +kernel
  exact fun name member => (List.mem_append.1 member).elim (own name) (spells.solid name)

theorem segments_names (region : Region) (spells : Path.Spells names path) :
    Path.segments (Path.ofSegments (region.names ++ names)) = region.names ++ names := by
  have own : ∀ name ∈ region.names, '/' ∉ name.toList := by
    cases region <;> decide +kernel
  apply Path.segments_ofSegments (by simp [spells.ne_nil])
  exact fun name member => (List.mem_append.1 member).elim (own name) (spells.unbroken name)

theorem within_plain (named : output ≠ "") (region : Region) (spells : Path.Spells names path) :
    Path.Within output (region.names ++ names) (plain output region names) := by
  have same := segments_names region spells
  have within : Path.Within output (Path.segments (Path.ofSegments (region.names ++ names)))
      (plain output region names) := by
    apply Path.Within.join named
    rw [same]
    exact solid_names region spells
  rwa [same] at within

theorem alike (named : output ≠ "") (region : Region) (spells : Path.Spells names path) :
    Path.Alike (Path.join (region.base output) path) (plain output region names) := by
  obtain ⟨front, name, split, busy, rfl⟩ := spells.split
  have within := within_plain named region spells
  refine ⟨?_, Path.lead output ++ region.names ++ front,
    Path.lead output ++ region.names ++ front.filter
      (!Path.isIdle ·), name, ?_, ?_, ?_, ?_, busy, ?_⟩
  · rw [Path.isAbsolute_join (base_ne_empty named region) spells.relative, isAbsolute_base named,
      within.absolute]
  · rw [segments_join named region spells.relative, split, ← List.append_assoc]
  · rw [within.segments]
    simp only [List.append_assoc]
  · simp [Path.lead_ne_nil]
  · simp [Path.lead_ne_nil]
  · simp only [List.filter_append, List.filter_filter, Bool.and_self]

end Region

/-- A disk on which the output path leads to the root and every entry lies in a directory. -/
structure Orderly (output : Path) (root : Location) (disk : Disk) : Prop where
  reaches : disk.Reaches output root
  grounded : disk.Grounded

structure Opens (root : Location) (names : List String) (disk after : Disk) : Prop where
  makes : Makes root names disk after
  grounded : after.Grounded

structure Shifts (root : Location) (source target : List String) (disk after : Disk) : Prop where
  wider : disk.Wider after
  narrower : after.Wider disk
  grounded : after.Grounded
  held : (disk.file? (root ++ source)).isSome = true
  leads : disk.Leads root source
  admits : disk.Admits root target
  files : ∀ location, after.file? location =
    if location = root ++ target then disk.file? (root ++ source)
    else if location = root ++ source then none else disk.file? location

structure Drops (root : Location) (names : List String) (disk after : Disk) : Prop where
  wider : disk.Wider after
  narrower : after.Wider disk
  grounded : after.Grounded
  files : ∀ location, after.file? location =
    if location = root ++ names then none else disk.file? location

theorem Orderly.opens (orderly : Orderly output root disk) (opens : Opens root names disk after) :
    Orderly output root after :=
  ⟨opens.makes.wider.reaches orderly.reaches, opens.grounded⟩

theorem Orderly.shifts (orderly : Orderly output root disk)
    (shifts : Shifts root source target disk after) : Orderly output root after :=
  ⟨shifts.wider.reaches orderly.reaches, shifts.grounded⟩

theorem Orderly.leads (orderly : Orderly output root disk)
    (held : (disk.file? (root ++ names)).isSome = true) : disk.Leads root names := by
  obtain ⟨contents, found⟩ := Option.isSome_iff_exists.1 held
  exact orderly.grounded.leads (file?_eq_some_iff.1 found)

theorem Shifts.file?_other (shifts : Shifts root source target disk after) {other : List String}
    (apart : other ≠ source) (apart' : other ≠ target) :
    after.file? (root ++ other) = disk.file? (root ++ other) := by
  rw [shifts.files, if_neg fun same => apart' (List.append_cancel_left same),
    if_neg fun same => apart (List.append_cancel_left same)]

theorem Shifts.file?_target (shifts : Shifts root source target disk after) :
    after.file? (root ++ target) = disk.file? (root ++ source) := by
  rw [shifts.files, if_pos rfl]

theorem Shifts.file?_source (shifts : Shifts root source target disk after)
    (apart : source ≠ target) : after.file? (root ++ source) = none := by
  rw [shifts.files, if_neg fun same => apart (List.append_cancel_left same), if_pos rfl]

theorem Shifts.file?_beyond (shifts : Shifts root source target disk after) {location : Location}
    (apart : ∀ names, location ≠ root ++ names) : after.file? location = disk.file? location := by
  rw [shifts.files, if_neg (apart target), if_neg (apart source)]

theorem Drops.file?_other (drops : Drops root names disk after) {other : List String}
    (apart : other ≠ names) : after.file? (root ++ other) = disk.file? (root ++ other) := by
  rw [drops.files, if_neg fun same => apart (List.append_cancel_left same)]

structure Takes (root : Location) (names : List String) (disk : Disk) : Prop where
  admits : disk.Admits root names
  free : disk.isDirectoryAt (root ++ names) = false

theorem Takes.keep (takes : Takes root names disk) (wider : disk.Wider after)
    (narrower : after.Wider disk) : Takes root names after := by
  refine ⟨takes.admits.wider wider, Bool.eq_false_iff.2 fun directory => ?_⟩
  have free := takes.free
  rw [narrower.directories _ directory] at free
  cases free

theorem Shifts.takes_source (shifts : Shifts root source target disk after)
    (last : source.getLast? = target.getLast?) : Takes root source after := by
  obtain ⟨contents, held⟩ := Option.isSome_iff_exists.1 shifts.held
  have free := isDirectoryAt_of_file? held
  have takes : Takes root source disk :=
    ⟨⟨shifts.leads, fun name ending => shifts.admits.2 name (last ▸ ending)⟩, free⟩
  exact takes.keep shifts.wider shifts.narrower

theorem Shifts.of_move {contents : ByteArray} (orderly : Orderly output root disk)
    (filled : target ≠ []) (held : disk.file? (root ++ source) = some contents)
    (admits : disk.Admits root target) (free : disk.isDirectoryAt (root ++ target) = false) :
    Shifts root source target disk
      ((disk.erase (root ++ source)).put (root ++ target) (.file contents)) := by
  have inner : root ++ source ≠ [] := by
    intro empty
    rw [empty] at held
    cases held
  have inner' : root ++ target ≠ [] := by simp [filled]
  refine ⟨wider_move inner inner' held free, ⟨rfl, fun location directory => ?_⟩,
    grounded_move orderly.grounded held inner filled admits free, by simp [held],
    orderly.leads (by simp [held]), admits, fun location => ?_⟩
  · rw [isDirectoryAt_iff, node?_move disk location contents inner inner'] at directory
    split_ifs at directory
    · cases directory
    · exact isDirectoryAt_iff.2 directory
  · rw [file?_move disk location contents inner inner', held]

section

variable (orderly : Orderly output root disk)

include orderly

theorem isFile_iff (region : Region) (spells : Path.Spells names path) :
    disk.isFile (Path.join (region.base output) path) = true ↔
      (disk.file? (root ++ (region.names ++ names))).isSome = true := by
  have named := orderly.reaches.named
  rw [isFile_alike (Region.alike named region spells),
    isFile_within orderly.reaches (Region.within_plain named region spells)]
  exact and_iff_right_of_imp orderly.leads

theorem spells_of_isFile (region : Region) (contained : Path.isContained path = true)
    (file : disk.isFile (Path.join (region.base output) path) = true) :
    Path.Spells (Path.names path) path := by
  obtain ⟨front, name, split⟩ : ∃ front name, Path.segments path = front ++ [name] :=
    ⟨_, _, (List.dropLast_concat_getLast (Path.segments_ne_nil path)).symm⟩
  have relative := (Path.isLevel_of_contained contained).1
  apply Path.spells_names contained split
  have joined : Path.segments (Path.join (region.base output) path) =
      Path.lead output ++ region.names ++ front ++ [name] := by
    rw [Region.segments_join orderly.reaches.named region relative, split, ← List.append_assoc]
  exact busy_of_isFile joined file

theorem shifts_of_moveFile (source target : Region) (spells : Path.Spells names path)
    (moved : moveFile (Path.join (source.base output) path) (Path.join (target.base output) path)
      disk = some after) :
    Shifts root (source.names ++ names) (target.names ++ names) disk after := by
  have named := orderly.reaches.named
  rw [moveFile_alike (Region.alike named source spells) (Region.alike named target spells)] at moved
  obtain ⟨contents, -, held, admits, free, rfl⟩ := (moveFile_within orderly.reaches
    (Region.within_plain named source spells) (Region.within_plain named target spells)).1 moved
  exact .of_move orderly (by simp [spells.ne_nil]) held admits free

theorem exists_moveFile (source target : Region) (spells : Path.Spells names path)
    (held : (disk.file? (root ++ (source.names ++ names))).isSome = true)
    (takes : Takes root (target.names ++ names) disk) : ∃ after, moveFile
      (Path.join (source.base output) path) (Path.join (target.base output) path) disk =
        some after := by
  have named := orderly.reaches.named
  obtain ⟨contents, found⟩ := Option.isSome_iff_exists.1 held
  rw [moveFile_alike (Region.alike named source spells) (Region.alike named target spells)]
  exact ⟨_, (moveFile_within orderly.reaches (Region.within_plain named source spells)
    (Region.within_plain named target spells)).2
      ⟨contents, orderly.leads held, found, takes.admits, takes.free, rfl⟩⟩

end

section

variable {volume : Volume} {good : Unit → Volume → Prop} {bad : BuildError → Volume → Prop}

theorem ends_makeParent (orderly : Orderly output root volume.disk) (region : Region)
    (spells : Path.Spells names path)
    (refused : ∀ error rest, bad error { volume with refusals := rest })
    (done : ∀ after rest, Opens root (region.names ++ names).dropLast volume.disk after →
      good () { volume with disk := after, refusals := rest }) :
    Ends (Storing.makeParent (Path.join (region.base output) path)) volume good bad := by
  have named := orderly.reaches.named
  have within := Region.within_plain named region spells
  obtain ⟨around, around', found, found', same⟩ := parent_alike volume.disk
    (Region.alike named region spells)
  obtain ⟨parent, known, made⟩ := makeDirectories_parent orderly.reaches within
  obtain rfl := Option.some.inj (found'.symm.trans known)
  simp only [Storing.makeParent, found]
  apply Storing.ends_call refused
  intro after rest making
  apply done
  have solid : ∀ name ∈ (region.names ++ names).dropLast, Path.isSolid name = true :=
    fun name member => within.solid name ((List.dropLast_sublist _).subset member)
  have grounded := (spares_makeDirectories root making).grounded orderly.grounded
  rw [same, made] at making
  exact ⟨makes_of_makeAlong making solid, grounded⟩

end

theorem Opens.refl (orderly : Orderly output root disk) (names : List String) :
    Opens root names disk disk :=
  ⟨.refl disk, orderly.grounded⟩

section

variable {good : Bool → Commit → Prop} {bad : BuildError → Commit → Prop}

theorem ends_save_of (orderly : Orderly output root commit.volume.disk)
    (spells : Path.Spells names path)
    (stopped : ∀ error volume,
      Opens root (backupName :: names).dropLast commit.volume.disk volume.disk →
      bad error { commit with volume := volume })
    (moved : ∀ made volume, Opens root (backupName :: names).dropLast commit.volume.disk made →
      Shifts root names (backupName :: names) made volume.disk →
      good true { commit with volume := volume, saved := path :: commit.saved }) :
    Ends (do
        onVolume (Storing.makeParent (Path.join (backup output) path))
        onVolume (Storing.call (Path.join output path)
          (moveFile (Path.join output path) (Path.join (backup output) path)))
        modify fun commit => { commit with saved := path :: commit.saved }
        return true) commit good bad := by
  apply Ends.bind_iff.2
  apply ends_onVolume
  apply ends_makeParent orderly .backup spells
  · exact fun error rest =>
      stopped error { commit.volume with refusals := rest } (.refl orderly _)
  · intro made rest opens
    apply Ends.bind_iff.2
    apply ends_onVolume
    apply Storing.ends_call
    · exact fun error rest =>
        stopped error { commit.volume with disk := made, refusals := rest } opens
    · intro after rest called
      have shifts := shifts_of_moveFile (orderly.opens opens) .home .backup spells called
      apply Ends.bind_iff.2
      apply Ends.modify_iff.2
      apply Ends.pure_iff.2
      exact moved made { commit.volume with disk := after, refusals := rest } opens shifts

/-- A file is set aside where one stands. Until it is moved no more has happened than that
directories were made. -/
theorem ends_setAside_of (orderly : Orderly output root commit.volume.disk)
    (answers : commit.volume.LapsesOnlyIf False) (contained : Path.isContained path = true)
    (missing : (∀ names, Path.Spells names path →
      commit.volume.disk.file? (root ++ names) = none) → ∀ volume : Volume,
      volume.disk = commit.volume.disk → good false { commit with volume := volume })
    (stopped : ∀ names error volume, Path.Spells names path →
      (commit.volume.disk.file? (root ++ names)).isSome = true →
      Opens root (backupName :: names).dropLast commit.volume.disk volume.disk →
      bad error { commit with volume := volume })
    (moved : ∀ names made volume, Path.Spells names path →
      (commit.volume.disk.file? (root ++ names)).isSome = true →
      Opens root (backupName :: names).dropLast commit.volume.disk made →
      Shifts root names (backupName :: names) made volume.disk →
      good true { commit with volume := volume, saved := path :: commit.saved }) :
    Ends (setAside output path) commit good bad := by
  have iff {names : List String} (spells : Path.Spells names path) :
      commit.volume.disk.isFile (Path.join output path) = true ↔ _ :=
    isFile_iff orderly .home spells
  rw [setAside]
  apply Ends.bind_iff.2
  apply ends_onVolume
  apply Storing.ends_ask
  · apply Ends.ite
    · intro standing
      have spells := spells_of_isFile orderly .home contained standing
      have held := (iff spells).1 standing
      exact ends_save_of orderly spells (fun error volume => stopped _ error volume spells held)
        fun made volume => moved _ made volume spells held
    · intro nothing
      refine Ends.pure_iff.2 (missing (fun names spells => ?_) _ rfl)
      by_contra held
      exact nothing ((iff spells).2 (Option.isSome_iff_ne_none.2 held))
  · exact fun fails => (answers fails).elim

end

theorem ends_place_of {middle : Commit → Prop} {good : Unit → Commit → Prop}
    {bad : BuildError → Commit → Prop} (spells : Path.Spells names path)
    (aside : Ends (setAside output path) commit (fun _ after => middle after) bad)
    (orderly : ∀ before, middle before → Orderly output root before.volume.disk)
    (stopped : ∀ before error volume, middle before →
      Opens root names.dropLast before.volume.disk volume.disk →
      bad error { before with volume := volume })
    (moved : ∀ before made volume, middle before →
      Opens root names.dropLast before.volume.disk made →
      Shifts root (stagingName :: names) names made volume.disk →
      good () { before with volume := volume, placed := path :: before.placed }) :
    Ends (place output path) commit good bad := by
  rw [place]
  apply Ends.bind_iff.2
  apply Ends.discard_iff.2
  apply aside.mono
  · intro _ before held
    have there := orderly before held
    apply Ends.bind_iff.2
    apply ends_onVolume
    apply ends_makeParent there .home spells
    · exact fun error rest =>
        stopped before error { before.volume with refusals := rest } held (.refl there _)
    · intro made rest opens
      apply Ends.bind_iff.2
      apply ends_onVolume
      apply Storing.ends_call
      · exact fun error rest => stopped before error
          { before.volume with disk := made, refusals := rest } held opens
      · intro after rest called
        have shifts := shifts_of_moveFile (there.opens opens) .staging .home spells called
        apply Ends.modify_iff.2
        exact moved before made { before.volume with disk := after, refusals := rest } held opens
          shifts
  · exact fun _ _ failed => failed

theorem drops_withdraw (orderly : Orderly output root disk) (spells : Path.Spells names path) :
    Drops root names disk (withdraw output disk path) := by
  have named := orderly.reaches.named
  have within := Region.within_plain named .home spells
  have same := removeFile_alike disk (Region.alike named .home spells)
  unfold withdraw
  cases removed : removeFile (Path.join output path) disk with
  | none =>
      refine ⟨.refl disk, .refl disk, orderly.grounded, fun location => ?_⟩
      split_ifs with here
      · by_contra held
        have held := Option.isSome_iff_ne_none.2 held
        rw [Option.getD_none, here] at held
        have called := (removeFile_within orderly.reaches within).2
          ⟨orderly.leads held, held, rfl⟩
        rw [← same] at called
        exact absurd (removed.symm.trans called) nofun
      · rfl
  | some after =>
      obtain ⟨-, held, rfl⟩ :=
        (removeFile_within orderly.reaches within).1 (same.symm.trans removed)
      obtain ⟨contents, found⟩ := Option.isSome_iff_exists.1 held
      have inner : root ++ names ≠ [] := by simp [spells.ne_nil]
      refine ⟨wider_erase inner (isDirectoryAt_of_file? found), erase_wider disk inner, ?_,
        fun location => ?_⟩
      · exact orderly.grounded.erase inner
          (orderly.grounded.clear_of_file (file?_eq_some_iff.1 found))
      · exact file?_erase disk location inner

theorem shifts_restore (orderly : Orderly output root disk) (spells : Path.Spells names path) :
    restore output disk path = disk ∨
      Shifts root (backupName :: names) names disk (restore output disk path) := by
  unfold restore
  cases moved : moveFile (Path.join (backup output) path) (Path.join output path) disk with
  | none => exact .inl rfl
  | some after => exact .inr (shifts_of_moveFile orderly .backup .home spells moved)

theorem restore_of_takes (orderly : Orderly output root disk) (spells : Path.Spells names path)
    (held : (disk.file? (root ++ backupName :: names)).isSome = true)
    (takes : Takes root names disk) :
    Shifts root (backupName :: names) names disk (restore output disk path) := by
  obtain ⟨after, moved⟩ := exists_moveFile orderly .backup .home spells held takes
  have called : restore output disk path = after := by
    unfold restore
    exact congrArg (·.getD disk) moved
  rw [called]
  exact shifts_of_moveFile orderly .backup .home spells moved

end Commit

end Elastic
