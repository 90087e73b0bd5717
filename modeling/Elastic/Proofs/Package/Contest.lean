import Elastic.Proofs.Package.Bounds
import Elastic.Proofs.Package.Tiers

namespace Elastic

open Disk Package

/-! What a package that could not be written leaves behind, if several of its entries are for one
file or one of them is for the index. A file over which no two entries are in contest is as it
was. -/

namespace Commit

variable {root location : Location} {output path : Path} {origin disk after : Disk}
  {names place : List String} {height : Nat} {laid : List Nat} {commit : Commit}
  {files stale : List Path}

/-- No entry of a package sets aside what an earlier one has put at a place of the file, nor what
would be kept where an earlier one has put something. Entries that only go away are never placed, so
that they do no harm to one another. -/
structure Uncontested (names : List String) (files stale : List Path) : Prop where
  placing : ((files ++ [PackageIndex.fileName]).filterMap (rank? names)).Pairwise
    fun first second => ¬ Conflicts first second
  pruning : ∀ first ∈ files.filterMap (rank? names), ∀ second ∈ stale.filterMap (rank? names),
    ¬ Conflicts first second

instance (names : List String) (files stale : List Path) :
    Decidable (Uncontested names files stale) :=
  decidable_of_iff (_ ∧ _) ⟨fun both => ⟨both.1, both.2⟩, fun holds => ⟨holds.1, holds.2⟩⟩

/-- However far the moves got, the file comes back when they are undone. -/
def Recoverable (root : Location) (names : List String) (origin : Disk) (commit : Commit) : Prop :=
  ∃ height laid,
    Tiered root names origin commit.volume.disk commit.placed commit.saved height laid

section

variable (reaches : origin.Reaches output root) (visible : Visible root names origin)

theorem Tiered.clear_backup (visible : Visible root names origin)
    (tiered : Tiered root names origin disk commit.placed commit.saved height laid)
    (filled : place ≠ []) (held : (disk.file? (root ++ place)).isSome = true) {times : Nat}
    (below : times < height) : ¬ tier names times <+: (backupName :: place).dropLast := by
  rw [List.dropLast_cons_of_ne_nil filled]
  intro sub
  cases times with
  | zero =>
      obtain ⟨named, apart⟩ := visible.inner (tiered.isSome_of_lt below)
      have outside := visible.outside
      obtain ⟨first, rest, rfl⟩ := List.exists_cons_of_ne_nil named
      obtain rfl := (List.cons_prefix_cons.1 sub).1
      cases rest with
      | nil => exact apart rfl
      | cons => simp [isInternal, internalNames] at outside
  | succ times =>
      rw [tier_succ, List.cons_prefix_cons] at sub
      have sub := sub.2
      obtain ⟨contents, found⟩ := Option.isSome_iff_exists.1 held
      have short := sub.length_le
      have long := List.length_pos_iff.2 filled
      rw [List.length_dropLast] at short
      have directory := tiered.grounded.isDirectoryAt_of_prefix (file?_eq_some_iff.1 found)
        ((List.prefix_append_right_inj root).2 (sub.trans (List.dropLast_prefix place)))
        fun same => by
          have lengths := congrArg List.length (List.append_cancel_left same)
          omega
      have free := (tiered.vacant times (Nat.lt_of_succ_lt below)).free
      rw [directory] at free
      cases free

include reaches visible

theorem ends_setAside_tiered
    (tiered : Tiered root names origin commit.volume.disk commit.placed commit.saved height laid)
    (answers : commit.volume.LapsesOnlyIf False) (contained : Path.isContained path = true)
    (spares : ∀ first ∈ laid, ∀ second ∈ rank? names path, ¬ Conflicts first second) :
    Ends (setAside output path) commit
      (fun _ after => (∃ higher, Tiered root names origin after.volume.disk after.placed after.saved
          higher laid ∧
          ∀ times < higher, times < height ∨ Path.Spells (tier names times) path) ∧
        ∀ place, Path.Spells place path → after.volume.disk.file? (root ++ place) = none)
      (fun _ after => Recoverable root names origin after) := by
  have orderly : Orderly output root commit.volume.disk :=
    ⟨tiered.wider.reaches reaches, tiered.grounded⟩
  have opened {place : List String} {made : Disk} (spells : Path.Spells place path)
      (held : (commit.volume.disk.file? (root ++ place)).isSome = true)
      (opens : Opens root (backupName :: place).dropLast commit.volume.disk made) :
      Tiered root names origin made commit.placed commit.saved height laid :=
    tiered.opens opens fun _ below _ => tiered.clear_backup visible spells.ne_nil held below
  apply ends_setAside_of orderly answers contained
  · intro missing volume same
    exact ⟨⟨height, same ▸ tiered, fun _ below => .inl below⟩, same ▸ missing⟩
  · exact fun place _ volume spells held opens => ⟨height, laid, opened spells held opens⟩
  · intro place made volume spells held opens shifts
    obtain ⟨higher, tiered, grown⟩ :=
      (opened spells held opens).aside visible spells spares shifts
    refine ⟨⟨higher, tiered, fun times below => (grown times below).imp_right ?_⟩, ?_⟩
    · rintro rfl
      exact spells
    · intro other spells'
      obtain rfl := spells.unique spells'
      apply shifts.file?_source
      exact fun same => absurd (congrArg List.length same) (by simp)

theorem ends_place_tiered
    (tiered : Tiered root names origin commit.volume.disk commit.placed commit.saved height laid)
    (answers : commit.volume.LapsesOnlyIf False) (spells : Path.Spells place path)
    (spares : ∀ first ∈ laid, ∀ second ∈ rank? names path, ¬ Conflicts first second)
    (clear : ∀ times < height, times ∉ laid → ¬ tier names times <+: place.dropLast) :
    Ends (Commit.place output path) commit
      (fun _ after => ∃ higher, Tiered root names origin after.volume.disk after.placed after.saved
          higher ((rank? names path).toList ++ laid) ∧
          ∀ times < higher, times < height ∨ times ∈ rank? names path)
      (fun _ after => Recoverable root names origin after) := by
  have self : ¬ place <+: place.dropLast := by
    intro sub
    have short := sub.length_le
    have long := List.length_pos_iff.2 spells.ne_nil
    rw [List.length_dropLast] at short
    omega
  have opened {before : Commit} {made : Disk} {higher : Nat}
      (tiered : Tiered root names origin before.volume.disk before.placed before.saved higher laid)
      (grown : ∀ times < higher, times < height ∨ Path.Spells (tier names times) path)
      (opens : Opens root place.dropLast before.volume.disk made) :
      Tiered root names origin made before.placed before.saved higher laid := by
    apply tiered.opens opens
    intro times below unlaid
    rcases grown times below with below | there
    · exact clear times below unlaid
    · rwa [there.unique spells]
  apply ends_place_of spells (ends_setAside_tiered reaches visible tiered answers spells.contained
    spares)
  · exact fun before ⟨⟨_, tiered, _⟩, _⟩ => ⟨tiered.wider.reaches reaches, tiered.grounded⟩
  · intro before _ volume ⟨⟨higher, tiered, grown⟩, _⟩ opens
    have stands := opened tiered grown opens
    exact ⟨higher, laid, stands⟩
  · intro before made volume ⟨⟨higher, tiered, grown⟩, vacated⟩ opens shifts
    have free : made.file? (root ++ place) = none := by
      rw [opens.makes.file?]
      exact vacated place spells
    refine ⟨higher, (opened tiered grown opens).lay visible spells free shifts,
      fun times below => ?_⟩
    exact (grown times below).imp_right fun there =>
      (rank?_eq_some spells).2 (spells.unique there)

/-- Files are placed one after another. A place of the file is only left open where the index
stood. -/
theorem ends_placeAll_tiered
    (tiered : Tiered root names origin commit.volume.disk commit.placed commit.saved height laid)
    (answers : commit.volume.LapsesOnlyIf False)
    (spelled : ∀ path ∈ files, Path.Spells (Path.names path) path)
    (inner : ∀ path ∈ files, ¬ [PackageIndex.fileName] <+: (Path.names path).dropLast)
    (among : (files.filterMap (rank? names)).Pairwise fun first second => ¬ Conflicts first second)
    (spares : ∀ first ∈ laid, ∀ second ∈ files.filterMap (rank? names), ¬ Conflicts first second)
    (opened : ∀ times < height, times ∉ laid → tier names times = [PackageIndex.fileName]) :
    Ends (placeAll output files) commit
      (fun _ after => ∃ higher later, Tiered root names origin after.volume.disk after.placed
        after.saved higher later ∧
        ∀ times ∈ later, times ∈ laid ∨ times ∈ files.filterMap (rank? names))
      (fun _ after => Recoverable root names origin after) := by
  induction files generalizing commit height laid with
  | nil => exact Ends.pure_iff.2 ⟨height, laid, tiered, fun _ member => .inl member⟩
  | cons path rest ih =>
      obtain ⟨spells, spelled⟩ := List.forall_mem_cons.1 spelled
      obtain ⟨apart, inner⟩ := List.forall_mem_cons.1 inner
      have split : (path :: rest).filterMap (rank? names) =
          (rank? names path).toList ++ rest.filterMap (rank? names) := by
        rw [List.filterMap_cons]
        cases rank? names path <;> rfl
      rw [split] at among spares
      obtain ⟨-, among, between⟩ := List.pairwise_append.1 among
      have clear : ∀ times < height, times ∉ laid →
          ¬ tier names times <+: (Path.names path).dropLast := by
        intro times below unlaid
        rwa [opened times below unlaid]
      apply (maintains_place_lapses output path).ends_bind answers
        (ends_place_tiered reaches visible tiered answers spells (fun first member second ranked =>
          spares first member second (List.mem_append_left _ (Option.mem_toList.2 ranked))) clear)
      · rintro _ after answers ⟨higher, tiered, grown⟩
        apply (ih tiered answers spelled inner among _ _).mono
        · rintro _ last ⟨higher, later, tiered, known⟩
          refine ⟨higher, later, tiered, fun times member => ?_⟩
          rw [split, List.mem_append]
          rcases known times member with known | known
          · exact (List.mem_append.1 known).symm.imp_right .inl
          · exact .inr (.inr known)
        · exact fun _ _ recoverable => recoverable
        · intro first member second ranked
          rcases List.mem_append.1 member with own | earlier
          · exact between first own second ranked
          · exact spares first earlier second (List.mem_append_right _ ranked)
        · intro times below out
          rw [List.mem_append, not_or, Option.mem_toList] at out
          exact opened times ((grown times below).resolve_right out.1) out.2
      · exact fun _ _ recoverable => recoverable

theorem ends_pruneAll_tiered
    (tiered : Tiered root names origin commit.volume.disk commit.placed commit.saved height laid)
    (answers : commit.volume.LapsesOnlyIf False)
    (contained : ∀ path ∈ stale, Path.isContained path = true)
    (spares : ∀ first ∈ laid, ∀ second ∈ stale.filterMap (rank? names), ¬ Conflicts first second) :
    Ends (pruneAll output stale) commit
      (fun _ after => ∃ higher, Tiered root names origin after.volume.disk after.placed after.saved
        higher laid)
      (fun _ after => Recoverable root names origin after) := by
  induction stale generalizing commit height with
  | nil => exact Ends.pure_iff.2 ⟨height, tiered⟩
  | cons path rest ih =>
      obtain ⟨here, contained⟩ := List.forall_mem_cons.1 contained
      have first : Ends (prune output path) commit
          (fun _ after => ∃ higher, Tiered root names origin after.volume.disk after.placed
            after.saved higher laid)
          (fun _ after => Recoverable root names origin after) := by
        rw [prune]
        apply Ends.bind (ends_setAside_tiered reaches visible tiered answers here
          fun first member second ranked => spares first member second
            (List.mem_filterMap.2 ⟨path, List.mem_cons_self, ranked⟩))
        · rintro aside after ⟨⟨higher, tiered, -⟩, -⟩
          apply Ends.ite
          · exact fun _ => Ends.modify_iff.2 ⟨higher, tiered⟩
          · exact fun _ => Ends.pure_iff.2 ⟨higher, tiered⟩
        · exact fun _ _ recoverable => recoverable
      apply (maintains_prune_lapses output path).ends_bind answers first
      · rintro _ after answers ⟨higher, tiered⟩
        apply ih tiered answers contained
        intro first member second ranked
        obtain ⟨other, inside, ranked⟩ := List.mem_filterMap.1 ranked
        exact spares first member second
          (List.mem_filterMap.2 ⟨other, List.mem_cons_of_mem _ inside, ranked⟩)
      · exact fun _ _ recoverable => recoverable

theorem ends_moves_tiered {volume : Volume} {before : Disk} {entries : List Artifact}
    {listed : List Path} (same : origin = volume.disk) (answers : volume.LapsesOnlyIf False)
    (provided : Provided root before entries origin)
    (spelled : ∀ path ∈ files, Path.Spells (Path.names path) path)
    (inner : ∀ path ∈ files, ¬ [PackageIndex.fileName] <+: (Path.names path).dropLast)
    (contained : ∀ path ∈ listed, Path.isContained path = true)
    (uncontested : Uncontested names files (stalePaths files listed)) :
    Ends (moves output files listed) { volume := volume }
      (fun _ after => Recoverable root names origin after)
      (fun _ after => Recoverable root names origin after) := by
  subst same
  obtain ⟨placing, pruning⟩ := uncontested
  rw [List.filterMap_append] at placing
  obtain ⟨among, -, between⟩ := List.pairwise_append.1 placing
  have index : [PackageIndex.fileName].filterMap (rank? names) =
      (rank? names PackageIndex.fileName).toList := by
    rw [List.filterMap_cons]
    cases rank? names PackageIndex.fileName <;> rfl
  rw [index] at between
  have start : Tiered root names volume.disk ({ volume := volume } : Commit).volume.disk
    [] [] 0 [] :=
    .start provided
  have answers : ({ volume := volume } : Commit).volume.LapsesOnlyIf False := answers
  have opening := ends_setAside_tiered reaches visible start answers spells_fileName.contained
    fun _ member => absurd member List.not_mem_nil
  rw [moves]
  apply (maintains_setAside_lapses output PackageIndex.fileName).discard.ends_bind answers
    opening.discard
  · rintro _ first answers ⟨⟨height, tiered, grown⟩, -⟩
    have opened : ∀ times < height, times ∉ ([] : List Nat) →
        tier names times = [PackageIndex.fileName] := by
      intro times below _
      exact ((grown times below).resolve_left (Nat.not_lt_zero times)).unique spells_fileName
    apply (maintains_placeAll fun _ _ => maintains_place_lapses _ _).ends_bind answers
      (ends_placeAll_tiered reaches visible tiered answers spelled inner among
        (fun _ member => absurd member List.not_mem_nil) opened)
    · rintro _ second answers ⟨height, laid, tiered, known⟩
      have known : ∀ times ∈ laid, times ∈ files.filterMap (rank? names) := fun times member =>
        (known times member).resolve_left List.not_mem_nil
      apply (maintains_pruneAll fun _ _ => maintains_prune_lapses _ _).ends_bind answers
        (ends_pruneAll_tiered reaches visible tiered answers
          (fun path member => contained path (mem_of_mem_stalePaths member).1)
          fun first member => pruning first (known first member))
      · rintro _ third answers ⟨height, tiered⟩
        apply (ends_place_tiered reaches visible tiered answers spells_fileName _ _).mono
        · intro _ last ends
          obtain ⟨higher, tiered, -⟩ := ends
          exact ⟨higher, _, tiered⟩
        · exact fun _ _ recoverable => recoverable
        · exact fun first member second ranked =>
            between first (known first member) second (Option.mem_toList.2 ranked)
        · intro times below _ sub
          rw [List.dropLast_singleton, List.prefix_nil] at sub
          obtain ⟨-, rfl⟩ := List.append_eq_nil_iff.1 sub
          exact (visible.inner (tiered.isSome_of_lt below)).1 rfl
      · exact fun _ _ recoverable => recoverable
    · exact fun _ _ recoverable => recoverable
  · exact fun _ _ recoverable => recoverable

end

end Commit

namespace Package

open Commit

variable {root : Location} {output : Path} {before origin : Disk}
    {entries artifacts : List Artifact}
  {names : List String}

theorem Provided.visible (provided : Provided root before entries origin)
    (directory : origin.isDirectoryAt root = true) (outside : isInternal names = false) :
    Visible root names origin := by
  refine ⟨outside, fun held => ⟨?_, ?_⟩⟩
  · rintro rfl
    rw [List.append_nil, file?_of_isDirectoryAt directory] at held
    cases held
  · rintro rfl
    rw [provided.unkept []] at held
    cases held

theorem Provided.not_below_index {system : String}
    (provided : Provided root before (artifacts ++ [indexFile system artifacts]) origin) :
    ∀ path ∈ artifacts.map (·.path),
      ¬ [PackageIndex.fileName] <+: (Path.names path).dropLast := by
  intro path member sub
  obtain ⟨artifact, inside, rfl⟩ := List.mem_map.1 member
  have staged {artifact : Artifact}
      (member : artifact ∈ artifacts ++ [indexFile system artifacts]) : ∃ contents, origin.file?
        (root ++ stagingName :: Path.names artifact.path) = some contents := by
    rw [provided.staged]
    exact Option.isSome_iff_exists.1 (isSome_lastOf member)
  obtain ⟨contents, held⟩ := staged (List.mem_append_left _ inside)
  have last : indexFile system artifacts ∈ artifacts ++ [indexFile system artifacts] := by simp
  obtain ⟨index, held'⟩ := staged last
  have place : Path.names (indexFile system artifacts).path = [PackageIndex.fileName] :=
    spells_fileName.names
  rw [place] at held'
  have above : root ++ [stagingName, PackageIndex.fileName] <+:
      root ++ stagingName :: Path.names artifact.path := by
    rw [List.prefix_append_right_inj, List.cons_prefix_cons]
    exact ⟨rfl, sub.trans (List.dropLast_prefix _)⟩
  have directory := provided.filesUnmoved.grounded.isDirectoryAt_of_prefix
    (file?_eq_some_iff.1 held) above fun same => by
      have short := sub.length_le
      have lengths := congrArg List.length (List.append_cancel_left same)
      simp only [List.length_dropLast, List.length_cons, List.length_nil] at short lengths
      omega
  rw [file?_of_isDirectoryAt directory] at held'
  cases held'

theorem rank?_slash (path : Path) : rank? ["/"] path = none := by
  cases ranked : rank? ["/"] path with
  | none => rfl
  | some times =>
      unfold rank? at ranked
      split at ranked
      · next spells =>
          have unbroken := spells.unbroken "/" (by simp [tier])
          exact absurd (by decide : '/' ∈ "/".toList) unbroken
      · cases ranked

theorem uncontested_slash (files stale : List Path) : Uncontested ["/"] files stale := by
  have none (paths : List Path) : paths.filterMap (rank? ["/"]) = [] :=
    List.filterMap_eq_nil_iff.2 fun path _ => rank?_slash path
  exact ⟨by rw [none]; exact .nil, by rw [none]; nofun⟩

/-- Every file in sight is as it was, but for files over which entries of a package are in contest:
those that several of them are for, that one of them and a listed path without one of its spelling
are for, and those with an entry for where the backup of another is kept. -/
def Intact (root : Location) (files stale : List Path) (before after : Disk) : Prop :=
  ∀ location, ¬ Internal root location →
    (∀ names, location = root ++ names → Uncontested names files stale) →
    after.file? location = before.file? location

theorem ends_moves_intact {system : String} {volume : Volume} {listed : List Path}
    (reaches : (bare root before).Reaches output root)
    (provided : Provided root before (artifacts ++ [indexFile system artifacts]) volume.disk)
    (answers : volume.LapsesOnlyIf False)
    (spelled : ∀ path ∈ artifacts.map (·.path), Path.Spells (Path.names path) path)
    (contained : ∀ path ∈ listed, Path.isContained path = true) :
    Ends (moves output (artifacts.map (·.path)) listed) { volume := volume }
      (fun _ after => after.volume.disk.Reaches output root)
      (fun _ after => (undone output after).Reaches output root ∧
        Intact root (artifacts.map (·.path)) (stalePaths (artifacts.map (·.path)) listed) before
          (undone output after)) := by
  have reached := (provided.filesUnmoved.orderly reaches).reaches
  have inner := provided.not_below_index
  have each {names : List String} (outside : isInternal names = false)
      (uncontested : Uncontested names (artifacts.map (·.path))
        (stalePaths (artifacts.map (·.path)) listed)) :
      Ends (moves output (artifacts.map (·.path)) listed) { volume := volume }
        (fun _ after => Recoverable root names volume.disk after)
        (fun _ after => Tiered root names volume.disk (undone output after) [] [] 0 []) := by
    have visible := provided.visible reached.directory outside
    apply (ends_moves_tiered reached visible rfl answers provided spelled inner contained
      uncontested).mono
    · exact fun _ _ recoverable => recoverable
    · exact fun _ _ ⟨_, _, tiered⟩ => tiered.undone reached visible
  have always := each (by decide +kernel)
    (uncontested_slash (artifacts.map (·.path)) (stalePaths (artifacts.map (·.path)) listed))
  have every := Ends.all fun names : { names : List String // isInternal names = false ∧
      Uncontested names (artifacts.map (·.path)) (stalePaths (artifacts.map (·.path)) listed) } =>
    each names.2.1 names.2.2
  apply (always.and every).mono
  · exact fun _ _ ⟨⟨_, _, tiered⟩, _⟩ => tiered.wider.reaches reached
  · rintro _ after ⟨tiered, towers⟩
    refine ⟨tiered.wider.reaches reached, fun location outside calm => ?_⟩
    rw [← provided.filesUnmoved.files location outside]
    by_cases within : ∃ names, location = root ++ names
    · obtain ⟨names, rfl⟩ := within
      have visible : isInternal names = false :=
        Bool.eq_false_iff.2 fun internal => outside ⟨names, internal, rfl⟩
      have tiered := towers ⟨names, visible, calm names rfl⟩
      have back := tiered.old 0 List.not_mem_nil
      rwa [if_pos rfl, tier_zero] at back
    · exact tiered.beyond location fun names same => within ⟨names, same⟩

/-- A package that could not be written leaves everything as it was but for what its own entries
are in contest over, whatever paths the artifacts and the earlier index have and whatever calls are
refused. Queries are answered here. -/
theorem failed_write_spares (system : String) (artifacts : List Artifact) {output : Path}
    {root : Location} {disk : Disk} (refusals : List Bool) (grounded : disk.Grounded)
    (reaches : (bare root disk).Reaches output root) :
    Ends (write system artifacts output) ⟨disk, refusals, []⟩ (fun _ _ => True)
      (fun _ after => Intact root (artifacts.map (·.path))
        (stalePaths (artifacts.map (·.path)) (listedFiles output disk)) disk after.disk) := by
  have contained := contained_listedFiles output disk
  have written : Ends (write system artifacts output) ⟨disk, refusals, []⟩
      (fun report _ => report = ⟨output, artifacts.map packaged⟩ ∧ True)
      (fun _ after => Intact root (artifacts.map (·.path))
        (stalePaths (artifacts.map (·.path)) (listedFiles output disk)) disk after.disk) := by
    apply ends_write_of_moves (fun _ => True) _ refusals grounded reaches
    · exact fun _ _ _ _ => trivial
    · exact fun _ _ same intact location outside calm =>
        (same location outside).trans (intact location outside calm)
    · exact fun _ _ _ => rfl
    · intro volume answers provided spelled
      apply (ends_moves_intact reaches provided answers _ contained).mono
      · exact fun _ _ there => ⟨there, trivial⟩
      · exact fun _ _ both => both
      · intro path member
        obtain ⟨artifact, inside, rfl⟩ := List.mem_map.1 member
        exact spelled artifact inside
  exact written.mono (fun _ _ _ => trivial) fun _ _ intact => intact

def doubled : List Artifact := [.ofText "a" "second", .ofText "./a" "third"]

/-- Two entries for the file `a`, which is marred when the second is placed; `old/b` is not. -/
theorem failed_write_spares_settled :
    settled.Grounded ∧ (bare ["out"] settled).Reaches "out" ["out"] ∧
      Uncontested ["old", "b"] ["a", "./a"] (stalePaths ["a", "./a"] (listedFiles "out" settled)) ∧
      ¬ Uncontested ["a"] ["a", "./a"] (stalePaths ["a", "./a"] (listedFiles "out" settled)) ∧
      (∀ refusals, Ends (write "demo" doubled "out") ⟨settled, refusals, []⟩
        (fun _ _ => True) (fun _ after => Intact ["out"] ["a", "./a"]
          (stalePaths ["a", "./a"] (listedFiles "out" settled)) settled after.disk)) ∧
      (((write "demo" doubled "out").run.run ⟨settled, [], []⟩).1.isOk,
          ((write "demo" doubled "out").run.run ⟨settled, [], []⟩).2.disk.file? ["out", "a"]) =
        (false, some "third".toUTF8) := by
  refine ⟨grounded_settled, reaches_settled, ⟨by decide +kernel, ?_⟩, fun uncontested => ?_,
    fun refusals => ?_, by decide +kernel⟩
  · have none : ["a", "./a"].filterMap (rank? ["old", "b"]) = [] := by decide +kernel
    rw [none]
    nofun
  · have placing := uncontested.placing
    revert placing
    decide +kernel
  · exact failed_write_spares "demo" doubled refusals grounded_settled reaches_settled

end Package

end Elastic
