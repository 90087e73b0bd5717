import Elastic.Package.Commit
import Elastic.Proofs.Build.Action
import Elastic.Proofs.Disk.Walks

namespace Elastic

open Disk

/-! The three regions of an output directory that the files of a package pass through: the staging
directory, the output directory itself, and the backup of what stood there. No two paths in two
regions name the same entry. -/

namespace Commit

def internalNames : List String := [stagingName, backupName]

theorem stagingName_internal : stagingName ∈ internalNames := List.mem_cons_self

theorem backupName_internal : backupName ∈ internalNames :=
  List.mem_cons_of_mem _ List.mem_cons_self

def isInternal : List String → Bool
  | name :: _ :: _ => name ∈ internalNames
  | _ => false

def Internal (root location : Location) : Prop :=
  ∃ names, isInternal names = true ∧ location = root ++ names

/-- A path from the output directory that leads on by names alone, and not into the staging or the
backup directory. -/
structure Placeable (path : Path) : Prop where
  solid : ∀ name ∈ Path.segments path, Path.isSolid name = true
  outside : isInternal (Path.segments path) = false

instance (path : Path) : Decidable (Placeable path) :=
  decidable_of_iff (_ ∧ _) ⟨fun both => ⟨both.1, both.2⟩, fun holds => ⟨holds.1, holds.2⟩⟩

theorem placeable_fileName : Placeable PackageIndex.fileName := by decide +kernel

inductive Region
  | home
  | staging
  | backup
deriving DecidableEq

namespace Region

variable {first second region : Region} {root : Location} {output path other : Path}

def names : Region → List String
  | home => []
  | staging => [stagingName]
  | backup => [backupName]

def base (output : Path) : Region → Path
  | home => output
  | staging => Commit.staging output
  | backup => Commit.backup output

def spot (region : Region) (path : Path) : List String := region.names ++ Path.segments path

theorem spot_ne_nil (region : Region) (path : Path) : region.spot path ≠ [] := by
  simp [spot, Path.segments_ne_nil]

theorem isInternal_spot (inner : region ≠ home) (path : Path) :
    isInternal (region.spot path) = true := by
  obtain ⟨name, rest, same⟩ := List.exists_cons_of_ne_nil (Path.segments_ne_nil path)
  cases region <;> simp_all [spot, names, isInternal, internalNames]

theorem spot_injective (placeable : Placeable path) (placeable' : Placeable other)
    (same : first.spot path = second.spot other) : first = second ∧ path = other := by
  have outer (path : Path) : home.spot path = Path.segments path := rfl
  have apart : stagingName ≠ backupName := by decide
  by_cases out : first = home <;> by_cases out' : second = home
  · subst out out'
    exact ⟨rfl, Path.segments_injective same⟩
  · subst out
    have inside := isInternal_spot out' other
    rw [← same, outer, placeable.outside] at inside
    exact absurd inside nofun
  · subst out'
    have inside := isInternal_spot out path
    rw [same, outer, placeable'.outside] at inside
    exact absurd inside nofun
  · cases first <;> cases second <;>
      simp_all [spot, names, Ne.symm apart, Path.segments_injective.eq_iff]

def location (region : Region) (root : Location) (path : Path) : Location :=
  root ++ region.spot path

theorem location_ne_nil (region : Region) (root : Location) (path : Path) :
    region.location root path ≠ [] := by
  simp [location, spot_ne_nil]

theorem location_injective (placeable : Placeable path) (placeable' : Placeable other)
    (same : first.location root path = second.location root other) :
    first = second ∧ path = other :=
  spot_injective placeable placeable' (List.append_cancel_left same)

theorem not_internal_home (placeable : Placeable path) :
    ¬ Internal root (home.location root path) := by
  rintro ⟨inner, internal, same⟩
  rw [← List.append_cancel_left same] at internal
  exact absurd internal (by simp [spot, names, placeable.outside])

theorem internal_location (inner : region ≠ home) (path : Path) :
    Internal root (region.location root path) :=
  ⟨_, isInternal_spot inner path, rfl⟩

theorem getLast?_spot (region : Region) (path : Path) :
    (region.spot path).getLast? = (Path.segments path).getLast? := by
  have filled := Path.segments_ne_nil path
  cases region <;> simp [spot, names, List.getLast?_cons, List.getLast?_eq_some_getLast filled]

theorem admits_of_leads {disk : Disk} (leads : disk.Leads root (second.spot path))
    (admits : disk.Admits root (first.spot path)) : disk.Admits root (second.spot path) := by
  refine ⟨leads, fun name last => admits.2 name ?_⟩
  rwa [getLast?_spot] at last ⊢

theorem within_name (named : output ≠ "") {name : String} (plain : Path.segments name = [name])
    (solid : Path.isSolid name = true) : Path.Within output [name] (Path.join output name) := by
  have joined : Path.Within output (Path.segments name) (Path.join output name) :=
    .join named (by simpa [plain] using solid)
  rwa [plain] at joined

theorem within_staging (named : output ≠ "") :
    Path.Within output [stagingName] (Commit.staging output) :=
  within_name named (by decide +kernel) (by decide +kernel)

theorem within_backup (named : output ≠ "") :
    Path.Within output [backupName] (Commit.backup output) :=
  within_name named (by decide +kernel) (by decide +kernel)

theorem within (named : output ≠ "") (region : Region) (placeable : Placeable path) :
    Path.Within output (region.spot path) (Path.join (region.base output) path) := by
  cases region with
  | home => exact .join named placeable.solid
  | staging => exact (within_staging named).join_join placeable.solid
  | backup => exact (within_backup named).join_join placeable.solid

end Region

structure Moves (root : Location) (source target : Region) (path : Path) (disk after : Disk) :
    Prop where
  wider : disk.Wider after
  held : (disk.file? (source.location root path)).isSome = true
  arrives : after.file? (target.location root path) = disk.file? (source.location root path)
  leaves : after.node? (source.location root path) = none
  nodes : ∀ location, location ≠ source.location root path →
    location ≠ target.location root path → after.node? location = disk.node? location

namespace Moves

variable {root : Location} {output path other : Path} {disk after : Disk}
variable {region source target : Region}

theorem of_move {contents : ByteArray} (placeable : Placeable path) (apart : source ≠ target)
    (held : disk.file? (source.location root path) = some contents)
    (free : disk.isDirectoryAt (target.location root path) = false) :
    Moves root source target path disk
      ((disk.erase (source.location root path)).put (target.location root path)
        (.file contents)) := by
  have inner := source.location_ne_nil root path
  have inner' := target.location_ne_nil root path
  refine ⟨wider_move inner inner' held free, by simp [held], ?_, ?_, ?_⟩
  · rw [file?_move _ _ _ inner inner', if_pos rfl, held]
  · rw [node?_move _ _ _ inner inner', if_neg, if_pos rfl]
    exact fun same => apart (Region.location_injective placeable placeable same).1
  · intro location left arrived
    rw [node?_move _ _ _ inner inner', if_neg arrived, if_neg left]

theorem node? (moves : Moves root source target path disk after) (placeable : Placeable path)
    (placeable' : Placeable other) (apart : other ≠ path ∨ region ≠ source ∧ region ≠ target) :
    after.node? (region.location root other) = disk.node? (region.location root other) := by
  apply moves.nodes
  · intro same
    obtain ⟨rfl, rfl⟩ := Region.location_injective placeable' placeable same
    simp at apart
  · intro same
    obtain ⟨rfl, rfl⟩ := Region.location_injective placeable' placeable same
    simp at apart

theorem file? (moves : Moves root source target path disk after) (placeable : Placeable path)
    (placeable' : Placeable other) (apart : other ≠ path ∨ region ≠ source ∧ region ≠ target) :
    after.file? (region.location root other) = disk.file? (region.location root other) :=
  file?_congr (moves.node? placeable placeable' apart)

theorem file?_visible {location : Location} (moves : Moves root source target path disk after)
    (outside : ¬ Internal root location) (apart : location ≠ Region.home.location root path) :
    after.file? location = disk.file? location := by
  have elsewhere (region : Region) : location ≠ region.location root path := by
    rintro rfl
    by_cases home : region = .home
    · exact apart (by rw [home])
    · exact outside (Region.internal_location home path)
  exact file?_congr (moves.nodes location (elsewhere source) (elsewhere target))

end Moves

theorem moves_of_moveFile {root : Location} {output path : Path} {disk after : Disk}
    (source target : Region) (reaches : disk.Reaches output root) (placeable : Placeable path)
    (apart : source ≠ target)
    (moved : moveFile (Path.join (source.base output) path) (Path.join (target.base output) path)
      disk = some after) :
    disk.Leads root (source.spot path) ∧ disk.Admits root (target.spot path) ∧
      Moves root source target path disk after := by
  obtain ⟨contents, leads, held, admits, free, rfl⟩ :=
    (moveFile_within reaches (Region.within reaches.named source placeable)
      (Region.within reaches.named target placeable)).1 moved
  exact ⟨leads, admits, .of_move placeable apart held free⟩

end Commit

end Elastic
