import Elastic.Proofs.Package.Journal

namespace Elastic

open Disk

namespace Commit

variable {α : Type} {root : Location} {output path : Path} {origin : Disk} {lapse : Prop}
  {commit before after last : Commit}

/-- A commit part way through, started on a disk. -/
structure Underway (root : Location) (lapse : Prop) (origin : Disk) (commit : Commit) : Prop where
  journal : Journal root lapse origin commit.volume.disk [] commit.placed commit.saved
  given : ∀ path ∈ commit.placed,
    commit.volume.disk.file? (Region.home.location root path) =
      origin.file? (Region.staging.location root path)
  waiting : ∀ path, Placeable path → path ∉ commit.placed →
    commit.volume.disk.file? (Region.staging.location root path) =
      origin.file? (Region.staging.location root path)

theorem Underway.start (root : Location) (lapse : Prop) (volume : Volume) :
    Underway root lapse volume.disk { volume := volume } :=
  ⟨.start root lapse volume.disk, nofun, fun _ _ _ => rfl⟩

theorem Underway.same {volume : Volume} (underway : Underway root lapse origin commit)
    (same : volume.disk = commit.volume.disk) :
    Underway root lapse origin { commit with volume := volume } := by
  obtain ⟨journal, given, waiting⟩ := underway
  rw [← same] at journal given waiting
  exact ⟨journal, given, waiting⟩

theorem Underway.makes {volume : Volume} {names : List String}
    (underway : Underway root lapse origin commit)
    (makes : Makes root names commit.volume.disk volume.disk)
    (clear : ∀ path ∈ commit.saved, path ∉ commit.placed → ¬ Region.home.spot path <+: names) :
    Underway root lapse origin { commit with volume := volume } where
  journal := underway.journal.makes makes clear
  given path member := by
    rw [makes.file?]
    exact underway.given path member
  waiting path placeable unplaced := by
    rw [makes.file?]
    exact underway.waiting path placeable unplaced

theorem Underway.save {volume : Volume} (underway : Underway root lapse origin commit)
    (placeable : Placeable path) (unplaced : path ∉ commit.placed)
    (leads : commit.volume.disk.Leads root (Region.home.spot path))
    (admits : commit.volume.disk.Admits root (Region.backup.spot path))
    (moves : Moves root .home .backup path commit.volume.disk volume.disk) :
    Underway root lapse origin { commit with volume := volume, saved := path :: commit.saved } where
  journal := underway.journal.save placeable unplaced leads admits moves
  given other member := by
    have apart : other ≠ path := by
      rintro rfl
      exact unplaced member
    rw [moves.file? placeable (underway.journal.placeable other (.inl member)) (.inl apart)]
    exact underway.given other member
  waiting other placeable' unplaced := by
    rw [moves.file? placeable placeable' (.inr (by decide))]
    exact underway.waiting other placeable' unplaced

theorem Underway.place {volume : Volume} (underway : Underway root lapse origin commit)
    (placeable : Placeable path) (unplaced : path ∉ commit.placed)
    (admits : commit.volume.disk.Admits root (Region.home.spot path))
    (moves : Moves root .staging .home path commit.volume.disk volume.disk)
    (fresh : path ∉ commit.saved → lapse ∨ origin.file? (Region.home.location root path) = none) :
    Underway root lapse origin { commit with volume := volume, placed :=
      path :: commit.placed } where
  journal := underway.journal.place placeable unplaced admits moves fresh
  given other member := by
    by_cases same : other = path
    · subst same
      rw [moves.arrives]
      exact underway.waiting other placeable unplaced
    · have member : other ∈ commit.placed := by simpa [same] using member
      rw [moves.file? placeable (underway.journal.placeable other (.inl member)) (.inl same)]
      exact underway.given other member
  waiting other placeable' out := by
    rw [List.mem_cons, not_or] at out
    rw [moves.file? placeable placeable' (.inl out.1)]
    exact underway.waiting other placeable' out.2

theorem Underway.clear_backup (underway : Underway root lapse origin commit) {other : Path}
    (member : other ∈ commit.saved) (unplaced : other ∉ commit.placed) :
    ¬ Region.home.spot other <+: (Region.backup.spot path).dropLast := by
  intro sub
  have placeable := underway.journal.placeable other (.inr member)
  obtain ⟨-, leads, -, -, gone⟩ := underway.journal.old other member
  obtain ⟨name, rest, split⟩ := List.exists_cons_of_ne_nil (Path.segments_ne_nil other)
  have first : name = backupName := by
    have sub := sub.trans (List.dropLast_prefix _)
    simp only [Region.spot, Region.names, split, List.nil_append, List.singleton_append] at sub
    exact (List.cons_prefix_cons.1 sub).1
  have hostSilent : rest = [] := by
    have outside := placeable.outside
    cases rest with
    | nil => rfl
    | cons second rest => simp [split, isInternal, internalNames, first] at outside
  -- Only the backup itself is above all backups, and it is a directory as long as a file is kept.
  have directory : commit.volume.disk.isDirectoryAt (root ++ [backupName]) = true :=
    leads.isDirectoryAt (Path.segments_ne_nil other)
  simp only [Region.location, Region.spot, Region.names, split, first, hostSilent,
    List.nil_append] at gone
  simp [isDirectoryAt, gone unplaced] at directory

/-- Some paths were placed in between, and some were set aside where something stood, if no query
failed. -/
structure Advances (root : Location) (lapse : Prop) (origin : Disk) (placing aside : List Path)
    (before after : Commit) : Prop where
  underway : Underway root lapse origin after
  placed : ∀ path, path ∈ after.placed ↔ path ∈ placing ∨ path ∈ before.placed
  saved : ∀ path ∈ after.saved, path ∈ aside ∨ path ∈ before.saved
  kept : ∀ path ∈ before.saved, path ∈ after.saved
  settled : ∀ path ∈ aside,
    path ∈ after.saved ∨ lapse ∨ origin.file? (Region.home.location root path) = none

structure Halts (root : Location) (lapse : Prop) (origin : Disk) (placing : List Path)
    (before after : Commit) : Prop where
  underway : Underway root lapse origin after
  placed : ∀ path ∈ after.placed, path ∈ placing ∨ path ∈ before.placed

theorem Advances.refl (underway : Underway root lapse origin commit) :
    Advances root lapse origin [] [] commit commit := by
  constructor <;> simp_all

theorem Advances.skip (underway : Underway root lapse origin commit)
    (settled : path ∈ commit.saved ∨ lapse ∨
      origin.file? (Region.home.location root path) = none) :
    Advances root lapse origin [] [path] commit commit := by
  constructor <;> simp_all

theorem Halts.of_same (underway : Underway root lapse origin after)
    (same : after.placed = before.placed) : Halts root lapse origin [] before after :=
  ⟨underway, fun _ member => .inr (same ▸ member)⟩

section

variable {placing placing' aside aside' : List Path}

theorem Advances.trans (first : Advances root lapse origin placing aside before after)
    (second : Advances root lapse origin placing' aside' after last) :
    Advances root lapse origin (placing ++ placing') (aside ++ aside') before last where
  underway := second.underway
  placed path := by
    rw [second.placed, first.placed, List.mem_append]
    tauto
  saved path member := by
    rw [List.mem_append]
    rcases second.saved path member with inside | earlier
    · exact .inl (.inr inside)
    · exact (first.saved path earlier).imp_left .inl
  kept path member := second.kept path (first.kept path member)
  settled path member := by
    rcases List.mem_append.1 member with earlier | later
    · exact (first.settled path earlier).imp_left (second.kept path)
    · exact second.settled path later

theorem Advances.halts (first : Advances root lapse origin placing aside before after)
    (second : Halts root lapse origin placing' after last) :
    Halts root lapse origin (placing ++ placing') before last where
  underway := second.underway
  placed path member := by
    rcases second.placed path member with inside | earlier
    · exact .inl (List.mem_append_right _ inside)
    · exact ((first.placed path).1 earlier).imp_left (List.mem_append_left _)

theorem Halts.mono (halts : Halts root lapse origin placing before after)
    (more : ∀ path ∈ placing, path ∈ placing') : Halts root lapse origin placing' before after :=
  ⟨halts.underway, fun path member => (halts.placed path member).imp_left (more path)⟩

end

theorem ends_onVolume {work : Storing α} {good : α → Commit → Prop}
    {bad : BuildError → Commit → Prop}
    (ends : Ends work commit.volume
      (fun value volume => good value { commit with volume := volume })
      (fun error volume => bad error { commit with volume := volume })) :
    Ends (onVolume work) commit good bad :=
  ends.focus (fun volume => { commit with volume := volume }) rfl

section

variable {invariant : Commit → Prop}

theorem maintains_onVolume {invariant : Volume → Prop} {work : Storing α}
    (maintains : Maintains invariant work) :
    Maintains (fun commit => invariant commit.volume) (onVolume work) :=
  fun commit holds => ends_onVolume (maintains commit.volume holds)

theorem maintains_placeAll {files : List Path}
    (each : ∀ path ∈ files, Maintains invariant (place output path)) :
    Maintains invariant (placeAll output files) := by
  induction files with
  | nil => exact Maintains.pure _
  | cons path rest induction =>
      obtain ⟨here, later⟩ := List.forall_mem_cons.1 each
      exact here.bind fun _ => induction later

theorem maintains_pruneAll {stale : List Path}
    (each : ∀ path ∈ stale, Maintains invariant (prune output path)) :
    Maintains invariant (pruneAll output stale) := by
  induction stale with
  | nil => exact Maintains.pure _
  | cons path rest induction =>
      obtain ⟨here, later⟩ := List.forall_mem_cons.1 each
      exact here.bind fun _ => induction later

theorem maintains_setAside_lapses (output path : Path) :
    Maintains (fun commit => commit.volume.LapsesOnlyIf lapse) (setAside output path) := by
  refine (maintains_onVolume fun _ lapses => Storing.ends_ask lapses.tail fun _ => lapses.tail).bind
    fun _ => Maintains.ite ?_ (Maintains.pure _)
  refine (maintains_onVolume Storing.maintains_makeParent_lapses).bind fun _ => ?_
  refine (maintains_onVolume Storing.maintains_call_lapses).bind fun _ => ?_
  refine (Maintains.modify ?_).bind fun _ => Maintains.pure _
  exact fun _ lapses => lapses

theorem maintains_place_lapses (output path : Path) :
    Maintains (fun commit => commit.volume.LapsesOnlyIf lapse) (place output path) := by
  refine (maintains_setAside_lapses output path).discard.bind fun _ => ?_
  refine (maintains_onVolume Storing.maintains_makeParent_lapses).bind fun _ => ?_
  exact (maintains_onVolume Storing.maintains_call_lapses).bind fun _ =>
    Maintains.modify fun _ lapses => lapses

theorem maintains_prune_lapses (output path : Path) :
    Maintains (fun commit => commit.volume.LapsesOnlyIf lapse) (prune output path) :=
  (maintains_setAside_lapses output path).bind fun _ =>
    Maintains.ite (Maintains.modify fun _ lapses => lapses) (Maintains.pure _)

end

structure Ready (output : Path) (root : Location) (origin : Disk) : Prop where
  reaches : origin.Reaches output root
  grounded : ∀ path, Placeable path →
    (origin.file? (Region.home.location root path)).isSome = true →
      origin.Leads root (Region.home.spot path)

theorem Underway.settled_of_missing (underway : Underway root lapse origin commit)
    (ready : Ready output root origin) (placeable : Placeable path)
    (unplaced : path ∉ commit.placed)
    (missing : ¬ commit.volume.disk.isFile (Path.join output path) = true) :
    path ∈ commit.saved ∨ origin.file? (Region.home.location root path) = none := by
  have reached := underway.journal.wider.reaches ready.reaches
  have inHome := Region.within reached.named .home placeable
  by_cases unsaved : path ∈ commit.saved
  · exact .inl unsaved
  · right
    by_contra held
    have held := Option.isSome_iff_ne_none.2 held
    have leads := (ready.grounded path placeable held).wider underway.journal.wider
    rw [← underway.journal.file?_home placeable unplaced unsaved] at held
    exact missing ((isFile_within reached inHome).2 ⟨leads, held⟩)

theorem ends_save (ready : Ready output root origin) (underway : Underway root lapse origin commit)
    (placeable : Placeable path) (unplaced : path ∉ commit.placed)
    (standing : commit.volume.disk.isFile (Path.join output path) = true) :
    Ends (do
        onVolume (Storing.makeParent (Path.join (backup output) path))
        onVolume (Storing.call (Path.join output path)
          (moveFile (Path.join output path) (Path.join (backup output) path)))
        modify fun commit => { commit with saved := path :: commit.saved }
        return true) commit
      (fun _ after => Advances root lapse origin [] [path] commit after)
      (fun _ after => Halts root lapse origin [] commit after) := by
  have reached := underway.journal.wider.reaches ready.reaches
  have inHome := Region.within reached.named .home placeable
  have inBackup := Region.within reached.named .backup placeable
  obtain ⟨leads, held⟩ := (isFile_within reached inHome).1 standing
  apply Ends.bind_iff.2
  apply ends_onVolume
  apply Storing.ends_makeParent reached inBackup
  · exact fun _ rest => .of_same (underway.same rfl) rfl
  · intro made rest makes
    have underway : Underway root lapse origin
        { commit with volume := { commit.volume with disk := made, refusals := rest } } :=
      underway.makes makes fun _ member out => underway.clear_backup member out
    apply Ends.bind_iff.2
    apply ends_onVolume
    apply Storing.ends_call
    · exact fun _ rest => .of_same (underway.same rfl) rfl
    · intro moved rest called
      obtain ⟨leads, admits, moves⟩ := moves_of_moveFile .home .backup
        (underway.journal.wider.reaches ready.reaches) placeable (by decide) called
      have underway : Underway root lapse origin
          { commit with
            volume := { commit.volume with disk := moved, refusals := rest }
            saved := path :: commit.saved } :=
        underway.save placeable unplaced leads admits moves
      apply Ends.bind_iff.2
      apply Ends.modify_iff.2
      apply Ends.pure_iff.2
      constructor <;> simp_all

theorem ends_setAside (ready : Ready output root origin)
    (underway : Underway root lapse origin commit)
    (lapses : commit.volume.LapsesOnlyIf lapse) (placeable : Placeable path)
    (unplaced : path ∉ commit.placed) :
    Ends (setAside output path) commit
      (fun _ after => Advances root lapse origin [] [path] commit after)
      (fun _ after => Halts root lapse origin [] commit after) := by
  have asked : Advances root lapse origin [] [] commit { commit with
      volume := { commit.volume with unanswered := commit.volume.unanswered.tail } } := by
    have underway : Underway root lapse origin { commit with
        volume := { commit.volume with unanswered := commit.volume.unanswered.tail } } :=
      underway.same rfl
    constructor <;> simp_all
  rw [setAside]
  apply Ends.bind_iff.2
  apply ends_onVolume
  apply Storing.ends_ask
  · apply Ends.ite
    · intro standing
      exact (ends_save ready asked.underway placeable unplaced standing).mono
        (fun _ _ later => asked.trans later) fun _ _ halts => asked.halts halts
    · intro missing
      have settled := underway.settled_of_missing ready placeable unplaced missing
      exact Ends.pure_iff.2 (asked.trans (.skip asked.underway (settled.imp_right .inr)))
  · intro fails
    exact Ends.pure_iff.2 (asked.trans (.skip asked.underway (.inr (.inl (lapses fails)))))

theorem ends_place (ready : Ready output root origin) (underway : Underway root lapse origin commit)
    (lapses : commit.volume.LapsesOnlyIf lapse) (placeable : Placeable path)
    (unplaced : path ∉ commit.placed)
    (clear : ∀ other ∈ commit.saved, other ∉ commit.placed →
      ¬ Region.home.spot other <+: (Region.home.spot path).dropLast) :
    Ends (place output path) commit
      (fun _ after => Advances root lapse origin [path] [path] commit after)
      (fun _ after => Halts root lapse origin [] commit after) := by
  rw [place]
  apply Ends.bind_iff.2
  apply Ends.discard_iff.2
  apply (ends_setAside ready underway lapses placeable unplaced).mono
  · intro _ commit' advances
    have unplaced' : path ∉ commit'.placed := by simpa [advances.placed] using unplaced
    have clear' : ∀ other ∈ commit'.saved, other ∉ commit'.placed →
        ¬ Region.home.spot other <+: (Region.home.spot path).dropLast := by
      intro other member out
      rcases advances.saved other member with same | earlier
      · obtain rfl := List.mem_singleton.1 same
        intro sub
        have short := sub.length_le
        have filled := List.length_pos_iff.2 (Region.home.spot_ne_nil other)
        rw [List.length_dropLast] at short
        omega
      · exact clear other earlier (by simpa [advances.placed] using out)
    have reached := advances.underway.journal.wider.reaches ready.reaches
    apply Ends.bind_iff.2
    apply ends_onVolume
    apply Storing.ends_makeParent reached (Region.within reached.named .home placeable)
    · exact fun _ rest => advances.halts (.of_same (advances.underway.same rfl) rfl)
    · intro made rest makes
      have underway : Underway root lapse origin
          { commit' with volume := { commit'.volume with disk := made, refusals := rest } } :=
        advances.underway.makes makes clear'
      apply Ends.bind_iff.2
      apply ends_onVolume
      apply Storing.ends_call
      · exact fun _ rest => advances.halts (.of_same (underway.same rfl) rfl)
      · intro moved rest called
        obtain ⟨-, admits, moves⟩ := moves_of_moveFile .staging .home
          (underway.journal.wider.reaches ready.reaches) placeable (by decide) called
        have fresh : path ∉ commit'.saved →
            lapse ∨ origin.file? (Region.home.location root path) = none := fun unsaved =>
          (advances.settled path (by simp)).resolve_left unsaved
        have underway : Underway root lapse origin
            { commit' with
              volume := { commit'.volume with disk := moved, refusals := rest }
              placed := path :: commit'.placed } :=
          underway.place placeable unplaced' admits moves fresh
        apply Ends.modify_iff.2
        exact ⟨underway, by simp [advances.placed], advances.saved, advances.kept,
          advances.settled⟩
  · exact fun _ _ halts => halts

theorem ends_placeAll (ready : Ready output root origin) {files : List Path}
    (underway : Underway root lapse origin commit) (lapses : commit.volume.LapsesOnlyIf lapse)
    (placeable : ∀ path ∈ files, Placeable path)
    (distinct : files.Nodup) (unplaced : ∀ path ∈ files, path ∉ commit.placed)
    (clear : ∀ other ∈ commit.saved, other ∉ commit.placed → ∀ path ∈ files,
      ¬ Region.home.spot other <+: (Region.home.spot path).dropLast) :
    Ends (placeAll output files) commit
      (fun _ after => Advances root lapse origin files files commit after)
      (fun _ after => Halts root lapse origin files commit after) := by
  induction files generalizing commit with
  | nil => exact Ends.pure_iff.2 (.refl underway)
  | cons path rest ih =>
      obtain ⟨fresh, distinct⟩ := List.nodup_cons.1 distinct
      have first := ends_place ready underway lapses (placeable path List.mem_cons_self)
        (unplaced path List.mem_cons_self)
        fun other member out => clear other member out path List.mem_cons_self
      apply (maintains_place_lapses output path).ends_bind lapses first
      · intro _ after lapses advances
        have unplaced' : ∀ path ∈ rest, path ∉ after.placed := by
          intro other member
          rw [advances.placed, List.mem_singleton, not_or]
          refine ⟨?_, unplaced other (List.mem_cons_of_mem _ member)⟩
          rintro rfl
          exact fresh member
        have clear' : ∀ other ∈ after.saved, other ∉ after.placed → ∀ path ∈ rest,
            ¬ Region.home.spot other <+: (Region.home.spot path).dropLast := by
          intro other member out
          rw [advances.placed, not_or] at out
          intro path inside
          exact clear other ((advances.saved other member).resolve_left out.1) out.2 path
            (List.mem_cons_of_mem _ inside)
        apply (ih advances.underway lapses (fun path member =>
          placeable path (List.mem_cons_of_mem _ member)) distinct unplaced' clear').mono
        · exact fun _ _ later => advances.trans later
        · exact fun _ _ halts => advances.halts halts
      · exact fun _ _ halts => halts.mono nofun

theorem ends_prune (ready : Ready output root origin) (underway : Underway root lapse origin commit)
    (lapses : commit.volume.LapsesOnlyIf lapse) (placeable : Placeable path)
    (unplaced : path ∉ commit.placed) :
    Ends (prune output path) commit
      (fun _ after => Advances root lapse origin [] [path] commit after)
      (fun _ after => Halts root lapse origin [] commit after) := by
  rw [prune]
  apply Ends.bind (ends_setAside ready underway lapses placeable unplaced)
  · intro aside after advances
    apply Ends.ite
    · intro _
      apply Ends.modify_iff.2
      exact ⟨⟨advances.underway.journal, advances.underway.given, advances.underway.waiting⟩,
        advances.placed, advances.saved, advances.kept, advances.settled⟩
    · exact fun _ => Ends.pure_iff.2 advances
  · exact fun _ _ halts => halts

theorem ends_pruneAll (ready : Ready output root origin) {stale : List Path}
    (underway : Underway root lapse origin commit) (lapses : commit.volume.LapsesOnlyIf lapse)
    (placeable : ∀ path ∈ stale, Placeable path)
    (unplaced : ∀ path ∈ stale, path ∉ commit.placed) :
    Ends (pruneAll output stale) commit
      (fun _ after => Advances root lapse origin [] stale commit after)
      (fun _ after => Halts root lapse origin [] commit after) := by
  induction stale generalizing commit with
  | nil => exact Ends.pure_iff.2 (.refl underway)
  | cons path rest ih =>
      apply (maintains_prune_lapses output path).ends_bind lapses
        (ends_prune ready underway lapses (placeable path List.mem_cons_self)
          (unplaced path List.mem_cons_self))
      · intro _ after lapses advances
        apply (ih advances.underway lapses
          (fun path member => placeable path (List.mem_cons_of_mem _ member))
          (by simpa [advances.placed] using
            fun path member => unplaced path (List.mem_cons_of_mem _ member))).mono
        · exact fun _ _ later => advances.trans later
        · exact fun _ _ halts => advances.halts halts
      · exact fun _ _ halts => halts

def stalePaths (files listed : List Path) : List Path :=
  listed.filter fun path => !(files.map Path.portable).contains (Path.portable path)

theorem mem_of_mem_stalePaths {files listed : List Path} (member : path ∈ stalePaths files listed) :
    path ∈ listed ∧ path ∉ files := by
  obtain ⟨inside, apart⟩ := List.mem_filter.1 member
  refine ⟨inside, fun produced => ?_⟩
  have shown := List.mem_map_of_mem (f := Path.portable) produced
  simp [shown] at apart

theorem spot_fileName : Region.home.spot PackageIndex.fileName = [PackageIndex.fileName] := by
  decide +kernel

theorem ends_moves {volume : Volume} (ready : Ready output root volume.disk)
    (lapses : volume.LapsesOnlyIf lapse) {files listed : List Path}
    (placeable : ∀ path, path ∈ files ∨ path ∈ listed → Placeable path)
    (distinct : (PackageIndex.fileName :: files).Nodup)
    (clear : ∀ path ∈ files,
      ¬ Region.home.spot PackageIndex.fileName <+: (Region.home.spot path).dropLast) :
    Ends (moves output files listed) { volume := volume }
      (fun _ after => Advances root lapse volume.disk (files ++ [PackageIndex.fileName])
        (PackageIndex.fileName :: (files ++ (stalePaths files listed ++ [PackageIndex.fileName])))
        { volume := volume } after)
      (fun _ after => Halts root lapse volume.disk files { volume := volume } after) := by
  obtain ⟨fresh, distinct⟩ := List.nodup_cons.1 distinct
  have stale {path : Path} (member : path ∈ stalePaths files listed) :=
    mem_of_mem_stalePaths member
  have start : ({ volume := volume } : Commit).volume.LapsesOnlyIf lapse := lapses
  have opened := ends_setAside ready (.start root lapse volume) start placeable_fileName nofun
  rw [moves]
  apply (maintains_setAside_lapses output PackageIndex.fileName).discard.ends_bind start
    opened.discard
  · intro _ first lapses opening
    apply ((maintains_placeAll fun _ _ => maintains_place_lapses _ _).ends_bind lapses
      (ends_placeAll ready opening.underway lapses (fun path member =>
        placeable path (.inl member)) distinct _ _))
    · intro _ second lapses placing
      have filled := opening.trans placing
      apply ((maintains_pruneAll fun _ _ => maintains_prune_lapses _ _).ends_bind lapses
        (ends_pruneAll ready placing.underway lapses (fun path member =>
          placeable path (.inr (stale member).1)) _))
      · intro _ third lapses pruning
        have cleared := filled.trans pruning
        -- The index, which was set aside first, comes last, behind all that it lists.
        apply (ends_place ready pruning.underway lapses placeable_fileName _ _).mono
        · intro _ last closing
          simpa using cleared.trans closing
        · exact fun _ _ halts => by simpa using cleared.halts halts
        · simpa [cleared.placed] using fresh
        · intro other _ _ sub
          rw [spot_fileName, List.dropLast_singleton, List.prefix_nil] at sub
          exact Region.home.spot_ne_nil other sub
      · exact fun _ _ halts => by simpa using filled.halts halts
      · intro path member
        simpa [filled.placed] using (stale member).2
    · exact fun _ _ halts => opening.halts halts
    · simp [opening.placed]
    · intro other member _ path inside
      have only : other = PackageIndex.fileName := by simpa using opening.saved other member
      rw [only]
      exact clear path inside
  · exact fun _ _ halts => halts.mono nofun

/-- A run is a question, the clearing of the backup, and the moves, which are made on a commit of
their own. How they end decides between finishing and going back. -/
theorem ends_run_of {volume : Volume} {files : List Path} {good : Unit → Volume → Prop}
    {bad : BuildError → Volume → Prop}
    (cleared : ∀ listed,
      listed = listedFiles output volume.disk ∨ true ∈ volume.unanswered ∧ listed = [] →
      Ends (clearBackup output) { volume with unanswered := volume.unanswered.tail }
        (fun _ after => Ends (moves output files listed) { volume := after }
          (fun _ commit => good () { commit.volume with disk := finish output commit })
          fun error commit => bad error { commit.volume with disk := rollBack output commit })
        bad) :
    Ends (run output files) volume good bad := by
  rw [run]
  apply Ends.bind_iff.2
  apply Storing.ends_answer
  intro listed known
  apply Ends.bind (cleared listed known)
  · intro _ after moved
    apply Ends.get_bind
    obtain ⟨⟨⟩, commit, ran, well⟩ | ⟨error, commit, ran, badly⟩ := moved.cases_run
    · have ran : moves output files listed { volume := after } = (.ok (), commit) := ran
      simp only [ran]
      exact Ends.set_iff.2 well
    · have ran : moves output files listed { volume := after } = (.error error, commit) := ran
      simp only [ran]
      exact Ends.bind_iff.2 (Ends.set_iff.2 (Ends.throw_iff.2 badly))
  · exact fun _ _ badly => badly

end Commit

end Elastic
