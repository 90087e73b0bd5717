import Elastic.Proofs.Disk.Walks
import Mathlib.Data.List.Basic

namespace Elastic

/-! Paths without upward segments. Such a path can lead to one place only, whatever is on the disk,
and what is done through it stays below the directory that it starts with. -/

namespace Path

variable {base path : Path}

/-- No segment leads back to the directory around. -/
def IsLevel (path : Path) : Prop := ∀ segment ∈ segments path, isUpward segment = false

instance (path : Path) : Decidable (IsLevel path) :=
  inferInstanceAs (Decidable (∀ segment ∈ segments path, isUpward segment = false))

def names (path : Path) : List String := (segments path).filter (!isIdle ·)

/-- Where a level path can lead, if relative paths start in the given directory. -/
def place (current : Location) (path : Path) : Location :=
  (if isAbsolute path then [] else current) ++ names path

theorem join_empty (relative : isAbsolute path = false) : join "" path = path := by
  simp [join, relative]

theorem names_eq_lead (path : Path) : names path = (lead path).filter (!isIdle ·) := by
  obtain same | same := segments_eq_lead path
  · rw [names, same]
  · rw [names, same, List.filter_append]
    exact List.append_nil _

theorem names_join (relative : isAbsolute path = false) :
    names (join base path) = names base ++ names path := by
  by_cases named : base = ""
  · rw [named, join_empty relative]
    rfl
  · rw [names, segments_join named relative, List.filter_append, ← names_eq_lead]
    rfl

theorem place_join (current : Location) (relative : isAbsolute path = false) :
    place current (join base path) = place current base ++ names path := by
  by_cases named : base = ""
  · rw [named, join_empty relative, place, place, relative]
    exact congrArg (· ++ names path) (List.append_nil current).symm
  · rw [place, place, names_join relative, isAbsolute_join named relative, List.append_assoc]

theorem IsLevel.join (level : IsLevel base) (level' : IsLevel path)
    (relative : isAbsolute path = false) : IsLevel (Path.join base path) := by
  by_cases named : base = ""
  · rwa [named, join_empty relative]
  · intro segment member
    rw [segments_join named relative] at member
    obtain before | after := List.mem_append.1 member
    · refine level segment ?_
      obtain same | same := segments_eq_lead base
      · rwa [same]
      · rw [same]
        exact List.mem_append_left _ before
    · exact level' segment after

theorem isLevel_of_contained (contained : isContained path = true) :
    isAbsolute path = false ∧ IsLevel path := by
  simp only [isContained, Bool.and_eq_true, Bool.not_eq_true', List.any_eq_false] at contained
  exact ⟨contained.1.1, fun segment member => by simpa using contained.1.2 segment member⟩

structure Below (current root : Location) (path : Path) : Prop where
  level : IsLevel path
  within : root <+: place current path

theorem IsLevel.below (level : IsLevel path) (current : Location) :
    Below current (place current path) path :=
  ⟨level, List.prefix_refl _⟩

theorem Below.join {current root : Location} (below : Below current root base)
    (contained : isContained path = true) : Below current root (Path.join base path) := by
  obtain ⟨relative, level⟩ := isLevel_of_contained contained
  refine ⟨below.level.join level relative, ?_⟩
  rw [place_join current relative]
  exact below.within.trans (List.prefix_append _ _)

end Path

namespace Disk

variable {disk after : Disk} {base location : Location} {path : Path} {segments : List String}

theorem enter?_level {segment : String} (level : Path.isUpward segment = false)
    (entered : disk.enter? base segment = some location) :
    location = base ++ [segment].filter (!Path.isIdle ·) := by
  unfold enter? at entered
  split at entered
  · cases entered
  · split at entered
    · rename_i idle
      rw [← Option.some.inj entered, List.filter_cons_of_neg (by simp [idle])]
      exact (List.append_nil base).symm
    · rename_i busy
      rw [level] at entered
      simp only [Bool.false_eq_true, if_false] at entered
      split at entered
      · rw [← Option.some.inj entered, List.filter_cons_of_pos (by simpa using busy)]
        rfl
      · cases entered

theorem walk?_level (level : ∀ segment ∈ segments, Path.isUpward segment = false)
    (walked : disk.walk? base segments = some location) :
    location = base ++ segments.filter (!Path.isIdle ·) := by
  induction segments generalizing base with
  | nil =>
      rw [← Option.some.inj walked]
      exact (List.append_nil base).symm
  | cons segment rest induction =>
      simp only [walk?] at walked
      split at walked
      · cases walked
      · rename_i next entered
        rw [induction (fun name member => level name (List.mem_cons_of_mem _ member)) walked,
          enter?_level (level segment List.mem_cons_self) entered, List.append_assoc,
          ← List.filter_append]
        rfl

theorem locate?_level (level : path.IsLevel) (located : disk.locate? path = some location) :
    location = path.place disk.current := by
  unfold locate? at located
  split at located
  · cases located
  · exact walk?_level level located

theorem slot?_level (level : path.IsLevel) (found : disk.slot? path = some location) :
    location = path.place disk.current ∧ location ≠ [] ∧
      disk.isDirectoryAt location.dropLast = true := by
  unfold slot? at found
  split at found
  · cases found
  · rename_i name inner turned
    have split : Path.segments path = inner.reverse ++ [name] := by
      rw [List.reverse_eq_iff.1 turned, List.reverse_cons]
    split at found
    · cases found
    · rename_i named
      split at found
      · cases found
      · rename_i around walked
        split at found
        · rename_i directory
          obtain rfl := Option.some.inj found
          have busy : Path.isIdle name = false := by
            simp only [Path.isName, Bool.not_eq_true', Bool.not_eq_false, Bool.and_eq_true] at named
            exact named.1.1.1
          refine ⟨?_, List.append_ne_nil_of_right_ne_nil _ (List.cons_ne_nil name []), ?_⟩
          · rw [walk?_level (fun segment member => level segment (by
              rw [split]
              exact List.mem_append_left _ member)) walked, Path.place, Path.names, split,
              List.filter_append, List.filter_cons_of_pos (by simp [busy]), List.append_assoc]
            rfl
          · rwa [List.dropLast_concat]
        · cases found

theorem Grounded.put (grounded : disk.Grounded) {node : Node} (inner : location ≠ [])
    (around : disk.isDirectoryAt location.dropLast = true)
    (free : disk.isDirectoryAt location = true → node = .directory) :
    (disk.put location node).Grounded := by
  have kept {other : Location} (directory : disk.isDirectoryAt other = true) :
      (disk.put location node).isDirectoryAt other = true := by
    rw [isDirectoryAt_iff, node?_put disk other node inner]
    split_ifs with here
    · rw [free (here ▸ directory)]
    · exact isDirectoryAt_iff.1 directory
  intro entry member
  obtain rfl | other := List.mem_cons.1 member
  · exact kept around
  · exact kept (grounded entry (List.mem_filter.1 other).1)

theorem Grounded.erase (grounded : disk.Grounded) (inner : location ≠ [])
    (clear : ∀ entry ∈ disk.entries, entry.1.dropLast ≠ location) :
    (disk.erase location).Grounded := by
  intro entry member
  obtain ⟨inside, -⟩ := List.mem_filter.1 member
  rw [isDirectoryAt_iff, node?_erase disk _ inner, if_neg (clear entry inside)]
  exact isDirectoryAt_iff.1 (grounded entry inside)

theorem Grounded.clear_of_file (grounded : disk.Grounded) {contents : ByteArray}
    (held : disk.node? location = some (.file contents)) :
    ∀ entry ∈ disk.entries, entry.1.dropLast ≠ location := by
  rintro entry member rfl
  cases held.symm.trans (isDirectoryAt_iff.1 (grounded entry member))

theorem clear_of_below (inner : location ≠ []) (empty : (disk.below location).isEmpty = true) :
    ∀ entry ∈ disk.entries, entry.1.dropLast ≠ location := by
  rintro ⟨place, node⟩ member rfl
  obtain rfl | ⟨front, name, rfl⟩ := List.eq_nil_or_concat place
  · exact inner rfl
  · rw [List.concat_eq_append, List.dropLast_concat] at empty
    have inside : ([name], node) ∈ disk.below front := by
      refine List.mem_filterMap.2 ⟨_, member, ?_⟩
      dsimp only
      rw [List.concat_eq_append, List.isPrefixOf?_eq_some_iff_append_eq.2 rfl]
    rw [List.isEmpty_iff.1 empty] at inside
    cases inside

theorem Grounded.eraseTree (grounded : disk.Grounded) (inner : location ≠ []) :
    (disk.eraseTree location).Grounded := by
  intro entry member
  obtain ⟨inside, outside⟩ := List.mem_filter.1 member
  rw [isDirectoryAt_iff, node?_eraseTree disk _ inner, if_neg]
  · exact isDirectoryAt_iff.1 (grounded entry inside)
  · intro above
    rw [List.isPrefixOf_iff_prefix.2 (above.trans (List.dropLast_prefix entry.1))] at outside
    cases outside

theorem Grounded.isDirectoryAt_of_prefix (grounded : disk.Grounded) {node : Node}
    (held : disk.node? location = some node) {above : Location} (sub : above <+: location)
    (apart : above ≠ location) : disk.isDirectoryAt above = true := by
  induction location using List.reverseRecOn generalizing node with
  | nil => exact absurd (List.prefix_nil.1 sub) apart
  | append_singleton front name induction =>
      have around := grounded.isDirectoryAt held
      rw [List.dropLast_concat] at around
      obtain whole | inner := List.prefix_concat_iff.1 sub
      · exact absurd whole apart
      · by_cases same : above = front
        · rwa [same]
        · exact induction (isDirectoryAt_iff.1 around) inner same

theorem walk?_of_directories (level : ∀ segment ∈ segments, Path.isUpward segment = false)
    (directories : ∀ above, above <+: base ++ segments.filter (!Path.isIdle ·) →
      disk.isDirectoryAt above = true) :
    disk.walk? base segments = some (base ++ segments.filter (!Path.isIdle ·)) := by
  induction segments generalizing base with
  | nil => exact congrArg some (List.append_nil base).symm
  | cons segment rest induction =>
      have later := @induction (base ++ [segment].filter (!Path.isIdle ·))
        (fun name member => level name (List.mem_cons_of_mem _ member))
      rw [List.append_assoc, ← List.filter_append, List.singleton_append] at later
      have here := directories base (List.prefix_append _ _)
      have entered : disk.enter? base segment =
          some (base ++ [segment].filter (!Path.isIdle ·)) := by
        by_cases idle : Path.isIdle segment = true
        · rw [List.filter_cons_of_neg (by simp [idle])]
          simp [enter?, here, idle]
        · have solid : Path.isSolid segment = true := by
            simp [Path.isSolid, idle, level segment List.mem_cons_self]
          have sub : base ++ [segment].filter (!Path.isIdle ·) <+:
              base ++ (segment :: rest).filter (!Path.isIdle ·) := by
            rw [← List.singleton_append (l := rest), List.filter_append, ← List.append_assoc]
            exact List.prefix_append _ _
          rw [List.filter_cons_of_pos (by simpa using idle), List.filter_nil] at sub ⊢
          exact (enter?_solid solid).2 ⟨here, isSome_of_isDirectoryAt (directories _ sub), rfl⟩
      rw [walk?, entered]
      exact later directories

theorem locate?_of_node (grounded : disk.Grounded) {front : List String} {name : String}
    {node : Node} (level : path.IsLevel) (split : Path.segments path = front ++ [name])
    (busy : Path.isIdle name = false)
    (held : disk.node? (path.place disk.current) = some node) :
    disk.locate? path = some (path.place disk.current) := by
  have named : path.isEmpty = false := by
    refine Bool.eq_false_iff.2 fun empty => ?_
    rw [String.isEmpty_iff.1 empty] at split
    obtain rfl : name = "" := by
      have last := congrArg List.getLast? split
      rw [List.getLast?_concat] at last
      exact (Option.some.inj last).symm
    cases busy
  have solid : Path.isSolid name = true := by
    have level := level name (by simp [split])
    simp [Path.isSolid, busy, level]
  have place : path.place disk.current =
      disk.start path ++ front.filter (!Path.isIdle ·) ++ [name] := by
    rw [Path.place, Path.names, split, List.filter_append,
      List.filter_cons_of_pos (by simp [busy]), List.append_assoc]
    rfl
  rw [place] at held ⊢
  have above {directory : Location}
      (sub : directory <+: disk.start path ++ front.filter (!Path.isIdle ·)) :
      disk.isDirectoryAt directory = true := by
    refine grounded.isDirectoryAt_of_prefix held (sub.trans (List.prefix_append _ _)) ?_
    rintro rfl
    have short := sub.length_le
    simp only [List.length_append, List.length_singleton] at short
    omega
  rw [locate?, named, if_neg (by simp), split, walk?_append,
    walk?_of_directories (fun segment member => level segment (by simp [split, member]))
      fun _ sub => above sub]
  have entered := (enter?_solid solid).2
    ⟨above (List.prefix_refl _), Option.isSome_iff_exists.2 ⟨node, held⟩, rfl⟩
  simp only [Option.bind_some, walk?, entered]

/-- Outside a directory no file comes, goes or changes. -/
structure Spares (root : Location) (disk after : Disk) : Prop where
  current : after.current = disk.current
  grounded : disk.Grounded → after.Grounded
  files : ∀ location, ¬ root <+: location → after.file? location = disk.file? location

variable {current root : Location} {contents : ByteArray}

theorem Spares.refl (root : Location) (disk : Disk) : Spares root disk disk :=
  ⟨rfl, id, fun _ _ => rfl⟩

theorem Spares.trans {last : Disk} (first : Spares root disk after)
    (second : Spares root after last) : Spares root disk last where
  current := second.current.trans first.current
  grounded := fun before => second.grounded (first.grounded before)
  files := fun location outside =>
    (second.files location outside).trans (first.files location outside)

theorem spares_put (below : root <+: location) (inner : location ≠ [])
    (around : disk.isDirectoryAt location.dropLast = true)
    (free : disk.isDirectoryAt location = false) :
    Spares root disk (disk.put location (.file contents)) where
  current := rfl
  grounded before := before.put inner around fun directory =>
    absurd (directory.symm.trans free) nofun
  files other outside := by
    rw [file?_put disk other contents inner, if_neg]
    rintro rfl
    exact outside below

theorem spares_erase (below : root <+: location) (inner : location ≠ [])
    (held : disk.node? location = some (.file contents)) : Spares root disk
    (disk.erase location) where
  current := rfl
  grounded before := before.erase inner (before.clear_of_file held)
  files other outside := by
    rw [file?_erase disk other inner, if_neg]
    rintro rfl
    exact outside below

theorem spares_makeAlong (root : Location) (made : disk.makeAlong base segments = some after) :
    Spares root disk after := by
  induction segments generalizing disk base with
  | nil =>
      simp only [makeAlong] at made
      split at made
      · rw [← Option.some.inj made]
        exact .refl root disk
      · cases made
  | cons segment rest induction =>
      simp only [makeAlong] at made
      split at made
      · exact induction made
      · rename_i blocked
        split at made
        · rename_i fits
          rw [Bool.and_eq_true] at fits
          obtain ⟨around, named⟩ := fits
          have inner : base ++ [segment] ≠ [] :=
            List.append_ne_nil_of_right_ne_nil base (List.cons_ne_nil segment [])
          have missing : disk.node? (base ++ [segment]) = none := by
            have solid : Path.isSolid segment = true := by
              simp only [Path.isName, Bool.and_eq_true] at named
              simp only [Path.isSolid, Bool.and_eq_true]
              exact named.1.1
            refine Option.not_isSome_iff_eq_none.1 fun held => ?_
            cases blocked.symm.trans ((enter?_solid solid).2 ⟨around, held, rfl⟩)
          have first : Spares root disk (disk.put (base ++ [segment]) .directory) := by
            refine ⟨rfl, fun before => ?_, fun other _ => ?_⟩
            · exact before.put inner (by rwa [List.dropLast_concat]) fun _ => rfl
            · unfold file?
              rw [node?_put disk other .directory inner]
              split_ifs with here
              · rw [here, missing]
              · rfl
          exact first.trans (induction made)
        · cases made

theorem spares_makeDirectories (root : Location) (made : makeDirectories path disk = some after) :
    Spares root disk after := by
  unfold makeDirectories at made
  split at made
  · rw [← Option.some.inj made]
    exact .refl root disk
  · exact spares_makeAlong root made

theorem file?_makeDirectories (made : makeDirectories path disk = some after)
    (location : Location) : after.file? location = disk.file? location := by
  refine (spares_makeDirectories (location ++ [""]) made).files location fun sub => ?_
  have short := sub.length_le
  simp only [List.length_append, List.length_singleton] at short
  omega

theorem createFile_level (level : path.IsLevel)
    (made : createFile path contents disk = some after) : disk.node?
      (path.place disk.current) = none ∧ after = disk.put (path.place disk.current)
        (.file contents) ∧
      path.place disk.current ≠ [] ∧ disk.Spares (path.place disk.current) after := by
  unfold createFile at made
  split at made
  · cases made
  · rename_i location found
    obtain ⟨rfl, inner, around⟩ := slot?_level level found
    split at made
    · cases made
    · rename_i free
      rw [Option.not_isSome_iff_eq_none] at free
      obtain rfl := Option.some.inj made
      refine ⟨free, rfl, inner, spares_put (List.prefix_refl _) inner around ?_⟩
      rw [isDirectoryAt, free]
      rfl

theorem spares_writeFile (same : disk.current = current) (below : path.Below current root)
    (written : writeFile path contents disk = some after) : Spares root disk after := by
  unfold writeFile at written
  split at written
  · cases written
  · rename_i location found
    obtain ⟨rfl, inner, around⟩ := slot?_level below.level found
    split at written
    · cases written
    · rename_i free
      rw [← Option.some.inj written]
      exact spares_put (same ▸ below.within) inner around (by simpa using free)

theorem spares_moveFile {source target : Path} (same : disk.current = current)
    (below : source.Below current root) (below' : target.Below current root)
    (moved : moveFile source target disk = some after) : Spares root disk after := by
  unfold moveFile at moved
  split at moved
  · rename_i origin location located found
    obtain rfl := locate?_level below.level located
    obtain ⟨rfl, inner, around⟩ := slot?_level below'.level found
    subst same
    split at moved
    · rename_i contents held
      split at moved
      · cases moved
      · rename_i free
        rw [← Option.some.inj moved]
        have filled : source.place disk.current ≠ [] := by
          intro empty
          rw [empty] at held
          cases held
        have kept {other : Location} (apart : other ≠ source.place disk.current) :
            (disk.erase (source.place disk.current)).isDirectoryAt other =
              disk.isDirectoryAt other := by
          unfold isDirectoryAt
          rw [node?_erase disk other filled, if_neg apart]
        refine (spares_erase below.within filled held).trans (spares_put below'.within inner ?_ ?_)
        · rw [kept]
          · exact around
          · intro same
            rw [same, isDirectoryAt, held] at around
            cases around
        · by_cases same : target.place disk.current = source.place disk.current
          · rw [same, isDirectoryAt, node?_erase disk _ filled, if_pos rfl]
            rfl
          · rw [kept same]
            simpa using free
    · cases moved
  · cases moved

theorem spares_removeFile (same : disk.current = current) (below : path.Below current root)
    (removed : removeFile path disk = some after) : Spares root disk after := by
  unfold removeFile at removed
  split at removed
  · cases removed
  · rename_i location located
    obtain rfl := locate?_level below.level located
    split at removed
    · rename_i contents held
      rw [← Option.some.inj removed]
      refine spares_erase (same ▸ below.within) ?_ held
      intro empty
      rw [empty] at held
      cases held
    · cases removed

theorem file?_removeFile (grounded : disk.Grounded) {front : List String} {name : String}
    (level : path.IsLevel) (split : Path.segments path = front ++ [name])
    (busy : Path.isIdle name = false) (location : Location) :
    ((removeFile path disk).getD disk).file? location =
      if location = path.place disk.current then none else disk.file? location := by
  have found {node : Node} (held : disk.node? (path.place disk.current) = some node) :=
    locate?_of_node grounded level split busy held
  cases held : disk.file? (path.place disk.current) with
  | some contents =>
      rw [file?_eq_some_iff] at held
      have inner : path.place disk.current ≠ [] := by
        intro empty
        rw [empty] at held
        cases held
      rw [removeFile, found held]
      simp only [held, Option.getD_some]
      exact file?_erase disk location inner
  | none =>
      have kept : removeFile path disk = none := by
        rw [file?_eq_none_iff] at held
        unfold removeFile
        split
        · rfl
        · rename_i origin located
          obtain rfl := locate?_level level located
          split
          · exact absurd ‹_› (held _)
          · rfl
      rw [kept, Option.getD_none]
      split_ifs with here
      · rw [here, held]
      · rfl

theorem spares_removeTree (same : disk.current = current) (below : path.Below current root)
    (removed : removeTree path disk = some after) : Spares root disk after := by
  unfold removeTree at removed
  split at removed
  · cases removed
  · rename_i location located
    obtain rfl := locate?_level below.level located
    subst same
    split at removed
    · rename_i standing
      rw [← Option.some.inj removed]
      simp only [Bool.and_eq_true, Bool.not_eq_true', List.isEmpty_eq_false_iff] at standing
      obtain ⟨inner, -⟩ := standing
      refine ⟨rfl, fun before => before.eraseTree inner, fun other outside => ?_⟩
      unfold file?
      rw [node?_eraseTree disk other inner, if_neg fun above => outside (below.within.trans above)]
    · cases removed

theorem spares_removeEmptyDirectory (root : Location)
    (removed : disk.removeEmptyDirectory path = some after) : Spares root disk after := by
  unfold removeEmptyDirectory at removed
  split at removed
  · cases removed
  · split at removed
    · cases removed
    · rename_i location located
      split at removed
      · rename_i standing
        rw [← Option.some.inj removed]
        simp only [Bool.and_eq_true, Bool.not_eq_true', List.isEmpty_eq_false_iff] at standing
        obtain ⟨⟨inner, directory⟩, empty⟩ := standing
        refine ⟨rfl, fun before => before.erase inner (clear_of_below inner empty),
          fun other _ => ?_⟩
        rw [file?_erase disk other inner]
        split_ifs with here
        · rw [here, file?_of_isDirectoryAt directory]
        · rfl
      · cases removed

end Disk

end Elastic
