import Elastic.Proofs.Package.Preparation

namespace Elastic

open Disk Package

/-! A file of the output directory and the places to which it comes when it is set aside, each in
the backup of the one before. Unless new content is set aside again, or falls victim to what is set
aside after it, undoing the moves brings the file back, whatever paths there are. -/

namespace Commit

variable {root location : Location} {output path : Path} {origin disk after : Disk}
  {placed saved : List Path} {names place : List String} {times height : Nat} {laid : List Nat}

/-- Where a file is after it was set aside a number of times. -/
def tier (names : List String) (times : Nat) : List String :=
  List.replicate times backupName ++ names

/-- How many times a file has to be set aside to come to where a path leads. -/
def rank? (names : List String) (path : Path) : Option Nat :=
  if Path.Spells (tier names ((Path.names path).length - names.length)) path then
    some ((Path.names path).length - names.length)
  else none

@[simp] theorem tier_zero (names : List String) : tier names 0 = names := rfl

@[simp] theorem tier_succ (names : List String) (times : Nat) :
    tier names (times + 1) = backupName :: tier names times := rfl

theorem length_tier (names : List String) (times : Nat) :
    (tier names times).length = times + names.length := by
  simp [tier]

theorem tier_injective (names : List String) : Function.Injective (tier names) := by
  intro first second same
  have lengths := congrArg List.length same
  rw [length_tier, length_tier] at lengths
  omega

theorem rank?_eq_some (spells : Path.Spells place path) :
    rank? names path = some times ↔ place = tier names times := by
  unfold rank?
  constructor
  · intro found
    split at found
    · next spells' =>
        rw [← Option.some.inj found]
        exact spells.unique spells'
    · cases found
  · rintro rfl
    have same : (Path.names path).length - names.length = times := by
      rw [spells.names, length_tier]
      omega
    rw [same, if_pos spells]

theorem rank?_eq_none (spells : Path.Spells place path) :
    rank? names path = none ↔ ∀ times, place ≠ tier names times := by
  rw [Option.eq_none_iff_forall_ne_some]
  exact forall_congr' fun _ => not_congr (rank?_eq_some spells)

def Conflicts (first second : Nat) : Prop := second = first ∨ second + 1 = first

instance (first second : Nat) : Decidable (Conflicts first second) :=
  inferInstanceAs (Decidable (_ ∨ _))

/-- A file that is in sight if it stands on the disk, and for which the backup has room. -/
structure Visible (root : Location) (names : List String) (origin : Disk) : Prop where
  outside : isInternal names = false
  inner : (origin.file? (root ++ names)).isSome = true → names ≠ [] ∧ names ≠ [backupName]

theorem Visible.backup_eq (visible : Visible root names origin) (filled : place ≠ []) :
    backupName :: place = tier names times ↔
      ∃ before, times = before + 1 ∧ place = tier names before := by
  cases times with
  | zero =>
      refine ⟨fun same => ?_, fun ⟨_, same, _⟩ => by cases same⟩
      have outside := visible.outside
      obtain ⟨next, rest, rfl⟩ := List.exists_cons_of_ne_nil filled
      rw [tier_zero] at same
      simp [← same, isInternal, internalNames] at outside
  | succ before => simp

theorem Visible.staging_ne (visible : Visible root names origin) (filled : place ≠ []) :
    stagingName :: place ≠ tier names times := by
  cases times with
  | zero =>
      intro same
      have outside := visible.outside
      obtain ⟨next, rest, rfl⟩ := List.exists_cons_of_ne_nil filled
      rw [tier_zero] at same
      simp [← same, isInternal, internalNames] at outside
  | succ before => simp [stagingName, backupName]

/-- Part way through the moves, or on the way back: `height` is how many times the file was set
aside, and `laid` says at which of its places new content stands. -/
structure Tiered (root : Location) (names : List String) (origin disk : Disk)
    (placed saved : List Path) (height : Nat) (laid : List Nat) : Prop where
  wider : origin.Wider disk
  grounded : disk.Grounded
  spelled : ∀ path, path ∈ placed ∨ path ∈ saved → Path.Spells (Path.names path) path
  placedRanks : placed.filterMap (rank? names) = laid
  savedRanks : saved.filterMap (rank? names) = (List.range height).reverse
  once : laid.Nodup
  low : origin.file? (root ++ names) = none → height = 0
  old : ∀ times, times ∉ laid → disk.file? (root ++ tier names times) =
    if times = height then origin.file? (root ++ names) else none
  new : ∀ times ∈ laid, (disk.file? (root ++ tier names times)).isSome = true ∧
    (times = height → origin.file? (root ++ names) = none)
  vacant : ∀ times < height, Takes root (tier names times) disk
  beyond : ∀ location, (∀ names, location ≠ root ++ names) →
    disk.file? location = origin.file? location

namespace Tiered

theorem start {before : Disk} {entries : List Artifact}
    (provided : Provided root before entries origin) : Tiered root names origin origin []
    [] 0 [] where
  wider := .refl origin
  grounded := provided.filesUnmoved.grounded
  spelled := nofun
  placedRanks := rfl
  savedRanks := rfl
  once := .nil
  low _ := rfl
  old times _ := by
    cases times with
    | zero => rfl
    | succ before => exact provided.unkept (tier names before)
  new := nofun
  vacant := nofun
  beyond _ _ := rfl

section

variable (tiered : Tiered root names origin disk placed saved height laid)

include tiered

theorem eq_height (unlaid : times ∉ laid)
    (held : (disk.file? (root ++ tier names times)).isSome = true) :
    times = height ∧ (origin.file? (root ++ names)).isSome = true := by
  rw [tiered.old times unlaid] at held
  split_ifs at held with same
  · exact ⟨same, held⟩
  · cases held

theorem isSome_of_lt (below : times < height) : (origin.file? (root ++ names)).isSome = true := by
  rw [Option.isSome_iff_ne_none]
  intro none
  have low := tiered.low none
  omega

theorem bypass {placed' saved' : List Path} (wider : disk.Wider after)
    (narrower : after.Wider disk) (grounded : after.Grounded)
    (same : ∀ times, after.file? (root ++ tier names times) =
      disk.file? (root ++ tier names times))
    (outside : ∀ location, (∀ names, location ≠ root ++ names) →
      after.file? location = disk.file? location)
    (spelled : ∀ path, path ∈ placed' ∨ path ∈ saved' → Path.Spells (Path.names path) path)
    (placedRanks : placed'.filterMap (rank? names) = placed.filterMap (rank? names))
    (savedRanks : saved'.filterMap (rank? names) = saved.filterMap (rank? names)) :
    Tiered root names origin after placed' saved' height laid where
  wider := tiered.wider.trans wider
  grounded := grounded
  spelled := spelled
  placedRanks := placedRanks.trans tiered.placedRanks
  savedRanks := savedRanks.trans tiered.savedRanks
  once := tiered.once
  low := tiered.low
  old times unlaid := by
    rw [same]
    exact tiered.old times unlaid
  new times member := by
    rw [same]
    exact tiered.new times member
  vacant times below := (tiered.vacant times below).keep wider narrower
  beyond location apart := (outside location apart).trans (tiered.beyond location apart)

theorem opens {along : List String} (opens : Opens root along disk after)
    (clear : ∀ times < height, times ∉ laid → ¬ tier names times <+: along) :
    Tiered root names origin after placed saved height laid where
  wider := tiered.wider.trans opens.makes.wider
  grounded := opens.grounded
  spelled := tiered.spelled
  placedRanks := tiered.placedRanks
  savedRanks := tiered.savedRanks
  once := tiered.once
  low := tiered.low
  old times unlaid := by
    rw [opens.makes.file?]
    exact tiered.old times unlaid
  new times member := by
    rw [opens.makes.file?]
    exact tiered.new times member
  vacant times below := by
    obtain ⟨admits, free⟩ := tiered.vacant times below
    refine ⟨admits.wider opens.makes.wider, ?_⟩
    rcases opens.makes.nodes (root ++ tier names times) with same | ⟨none, -, inner, -, sub, at_⟩
    · rwa [isDirectoryAt, same]
    · obtain rfl := List.append_cancel_left at_
      by_cases unlaid : times ∈ laid
      · have held := (tiered.new times unlaid).1
        simp [Disk.file?, none] at held
      · exact absurd sub (clear times below unlaid)
  beyond location apart := by
    rw [opens.makes.file?]
    exact tiered.beyond location apart

theorem aside (visible : Visible root names origin) (spells : Path.Spells place path)
    (spares : ∀ first ∈ laid, ∀ second ∈ rank? names path, ¬ Conflicts first second)
    (shifts : Shifts root place (backupName :: place) disk after) :
    ∃ higher, Tiered root names origin after placed (path :: saved) higher laid ∧
      ∀ times < higher, times < height ∨ tier names times = place := by
  have filled := spells.ne_nil
  have spelled : ∀ other, other ∈ placed ∨ other ∈ path :: saved →
      Path.Spells (Path.names other) other := by
    rintro other (member | member)
    · exact tiered.spelled other (.inl member)
    · rcases List.mem_cons.1 member with rfl | member
      · rwa [spells.names]
      · exact tiered.spelled other (.inr member)
  cases ranked : rank? names path with
  | none =>
      have apart := (rank?_eq_none spells).1 ranked
      refine ⟨height, tiered.bypass shifts.wider shifts.narrower shifts.grounded (fun times => ?_)
        (fun _ => shifts.file?_beyond) spelled rfl (List.filterMap_cons_none ranked),
        fun _ below => .inl below⟩
      apply shifts.file?_other (apart times).symm
      intro kept
      obtain ⟨before, -, there⟩ := (visible.backup_eq filled).1 kept.symm
      exact apart before there
  | some times =>
      obtain rfl := (rank?_eq_some spells).1 ranked
      have apart (first : Nat) (member : first ∈ laid) : first ≠ times ∧ first ≠ times + 1 := by
        have spared := spares first member times ranked
        exact ⟨fun same => spared (.inl same.symm), fun same => spared (.inr same.symm)⟩
      have unlaid : times ∉ laid := fun member => (apart times member).1 rfl
      obtain ⟨rfl, standing⟩ := tiered.eq_height unlaid shifts.held
      have self : tier names times ≠ backupName :: tier names times := fun same =>
        absurd (tier_injective names (same.trans (tier_succ names times).symm)) (by omega)
      have others (other : Nat) (apart : other ≠ times) (apart' : other ≠ times + 1) :
          after.file? (root ++ tier names other) = disk.file? (root ++ tier names other) := by
        apply shifts.file?_other
        · exact fun same => apart (tier_injective names same)
        · exact fun same => apart' (tier_injective names same)
      refine ⟨times + 1, ⟨tiered.wider.trans shifts.wider, shifts.grounded, spelled,
        tiered.placedRanks, ?_, tiered.once, ?_, ?_, ?_, ?_, fun location apart =>
        (shifts.file?_beyond apart).trans (tiered.beyond location apart)⟩, fun other below => ?_⟩
      · rw [List.filterMap_cons_some ranked, tiered.savedRanks, List.range_succ,
          List.reverse_concat]
      · intro missing
        rw [missing] at standing
        cases standing
      · intro other out
        by_cases top : other = times + 1
        · rw [if_pos top, top, tier_succ, shifts.file?_target, tiered.old times unlaid, if_pos rfl]
        · rw [if_neg top]
          by_cases left : other = times
          · rw [left]
            exact shifts.file?_source self
          · rw [others other left top, tiered.old other out, if_neg left]
      · intro other member
        obtain ⟨left, top⟩ := apart other member
        rw [others other left top]
        exact ⟨(tiered.new other member).1, fun same => absurd same top⟩
      · intro other below
        by_cases last : other = times
        · rw [last]
          apply shifts.takes_source
          rw [List.getLast?_cons_of_ne_nil filled]
        · exact (tiered.vacant other (by omega)).keep shifts.wider shifts.narrower
      · by_cases last : other = times
        · exact .inr (by rw [last])
        · exact .inl (by omega)

theorem lay (visible : Visible root names origin) (spells : Path.Spells place path)
    (free : disk.file? (root ++ place) = none)
    (shifts : Shifts root (stagingName :: place) place disk after) :
    Tiered root names origin after (path :: placed) saved height
      ((rank? names path).toList ++ laid) := by
  have filled := spells.ne_nil
  have spelled : ∀ other, other ∈ path :: placed ∨ other ∈ saved →
      Path.Spells (Path.names other) other := by
    rintro other (member | member)
    · rcases List.mem_cons.1 member with rfl | member
      · rwa [spells.names]
      · exact tiered.spelled other (.inl member)
    · exact tiered.spelled other (.inr member)
  have others (other : Nat) (apart : tier names other ≠ place) :
      after.file? (root ++ tier names other) = disk.file? (root ++ tier names other) :=
    shifts.file?_other (visible.staging_ne filled).symm apart
  cases ranked : rank? names path with
  | none =>
      have apart := (rank?_eq_none spells).1 ranked
      exact tiered.bypass shifts.wider shifts.narrower shifts.grounded
        (fun times => others times (apart times).symm) (fun _ => shifts.file?_beyond) spelled
        (List.filterMap_cons_none ranked) rfl
  | some times =>
      obtain rfl := (rank?_eq_some spells).1 ranked
      have unlaid : times ∉ laid := by
        intro member
        have held := (tiered.new times member).1
        rw [free] at held
        cases held
      refine ⟨tiered.wider.trans shifts.wider, shifts.grounded, spelled, ?_, tiered.savedRanks,
        List.nodup_cons.2 ⟨unlaid, tiered.once⟩, tiered.low, ?_, ?_, fun times below =>
        (tiered.vacant times below).keep shifts.wider shifts.narrower, fun location apart =>
        (shifts.file?_beyond apart).trans (tiered.beyond location apart)⟩
      · rw [List.filterMap_cons_some ranked, tiered.placedRanks]
        rfl
      · intro other out
        obtain ⟨apart, out⟩ := List.ne_and_not_mem_of_not_mem_cons out
        rw [others other fun same => apart (tier_injective names same)]
        exact tiered.old other out
      · intro other member
        rcases List.mem_cons.1 member with rfl | member
        · refine ⟨by rw [shifts.file?_target]; exact shifts.held, ?_⟩
          rintro rfl
          rwa [tiered.old _ unlaid, if_pos rfl] at free
        · rw [others other fun same => unlaid (tier_injective names same ▸ member)]
          exact tiered.new other member

end

theorem withdraw (reaches : origin.Reaches output root)
    (tiered : Tiered root names origin disk (path :: placed) saved height laid) :
    ∃ left, Tiered root names origin (withdraw output disk path) placed saved height left := by
  have spells := tiered.spelled path (.inl List.mem_cons_self)
  have drops := drops_withdraw ⟨tiered.wider.reaches reaches, tiered.grounded⟩ spells
  have spelled : ∀ other, other ∈ placed ∨ other ∈ saved →
      Path.Spells (Path.names other) other := fun other member =>
    tiered.spelled other (member.imp_left (List.mem_cons_of_mem _))
  have outside : ∀ location, (∀ names, location ≠ root ++ names) →
      (Commit.withdraw output disk path).file? location = disk.file? location := by
    intro location apart
    rw [drops.files, if_neg (apart _)]
  cases ranked : rank? names path with
  | none =>
      have apart := (rank?_eq_none spells).1 ranked
      exact ⟨laid, tiered.bypass drops.wider drops.narrower drops.grounded
        (fun times => drops.file?_other (apart times).symm) outside spelled
        (List.filterMap_cons_none ranked).symm rfl⟩
  | some times =>
      have there := (rank?_eq_some spells).1 ranked
      have ranks := tiered.placedRanks
      rw [List.filterMap_cons_some ranked] at ranks
      subst ranks
      obtain ⟨fresh, once⟩ := List.nodup_cons.1 tiered.once
      have others (other : Nat) (apart : other ≠ times) :
          (Commit.withdraw output disk path).file? (root ++ tier names other) =
            disk.file? (root ++ tier names other) :=
        drops.file?_other fun same => apart (tier_injective names (same.trans there))
      refine ⟨_, ⟨tiered.wider.trans drops.wider, drops.grounded, spelled, rfl,
        tiered.savedRanks, once, tiered.low, ?_, ?_, fun times below =>
        (tiered.vacant times below).keep drops.wider drops.narrower, fun location apart =>
        (outside location apart).trans (tiered.beyond location apart)⟩⟩
      · intro other unlaid
        by_cases same : other = times
        · subst same
          rw [drops.files, if_pos (by rw [there])]
          split_ifs with top
          · exact ((tiered.new other List.mem_cons_self).2 top).symm
          · rfl
        · rw [others other same]
          exact tiered.old other (List.not_mem_cons_of_ne_of_not_mem same unlaid)
      · intro other member
        rw [others other (ne_of_mem_of_not_mem member fresh)]
        exact tiered.new other (List.mem_cons_of_mem _ member)

theorem restore (reaches : origin.Reaches output root) (visible : Visible root names origin)
    (tiered : Tiered root names origin disk [] (path :: saved) height []) :
    ∃ lower, Tiered root names origin (restore output disk path) [] saved lower [] := by
  have spells := tiered.spelled path (.inr List.mem_cons_self)
  have filled := spells.ne_nil
  have orderly : Orderly output root disk := ⟨tiered.wider.reaches reaches, tiered.grounded⟩
  have spelled : ∀ other, other ∈ ([] : List Path) ∨ other ∈ saved →
      Path.Spells (Path.names other) other := fun other member =>
    tiered.spelled other (member.imp_right (List.mem_cons_of_mem _))
  cases ranked : rank? names path with
  | none =>
      have apart := (rank?_eq_none spells).1 ranked
      have savedRanks : saved.filterMap (rank? names) = (path :: saved).filterMap (rank? names) :=
        (List.filterMap_cons_none ranked).symm
      rcases shifts_restore orderly spells with same | shifts
      · rw [same]
        exact ⟨height, tiered.bypass (.refl _) (.refl _) tiered.grounded (fun _ => rfl)
          (fun _ _ => rfl) spelled rfl savedRanks⟩
      · refine ⟨height, tiered.bypass shifts.wider shifts.narrower shifts.grounded (fun times => ?_)
          (fun _ => shifts.file?_beyond) spelled rfl savedRanks⟩
        apply shifts.file?_other _ (apart times).symm
        intro kept
        obtain ⟨before, -, there⟩ := (visible.backup_eq filled).1 kept.symm
        exact apart before there
  | some times =>
      have there := (rank?_eq_some spells).1 ranked
      have ranks := tiered.savedRanks
      rw [List.filterMap_cons_some ranked] at ranks
      obtain ⟨rfl, lower⟩ : height = times + 1 ∧
          saved.filterMap (rank? names) = (List.range times).reverse := by
        cases height with
        | zero => cases ranks
        | succ below =>
            rw [List.range_succ, List.reverse_concat] at ranks
            obtain ⟨rfl, rest⟩ := List.cons.inj ranks
            exact ⟨rfl, rest⟩
      rw [there] at spells
      have standing := tiered.isSome_of_lt (Nat.lt_succ_self times)
      have top := tiered.old (times + 1) List.not_mem_nil
      rw [if_pos rfl, tier_succ] at top
      have shifts := restore_of_takes orderly spells (by rw [top]; exact standing)
        (tiered.vacant times (Nat.lt_succ_self times))
      have self : backupName :: tier names times ≠ tier names times := fun same =>
        absurd (tier_injective names ((tier_succ names times).trans same)) (by omega)
      refine ⟨times, ⟨tiered.wider.trans shifts.wider, shifts.grounded, spelled, rfl, lower, .nil,
        ?_, ?_, nofun, fun other below =>
        (tiered.vacant other (by omega)).keep shifts.wider shifts.narrower, fun location apart =>
        (shifts.file?_beyond apart).trans (tiered.beyond location apart)⟩⟩
      · intro missing
        rw [missing] at standing
        cases standing
      · intro other _
        by_cases here : other = times
        · rw [if_pos here, here, shifts.file?_target, top]
        · rw [if_neg here]
          by_cases above : other = times + 1
          · rw [above]
            exact shifts.file?_source self
          · rw [shifts.file?_other (fun same => above (tier_injective names same))
              fun same => here (tier_injective names same), tiered.old _ List.not_mem_nil,
              if_neg above]

/-- Undoing the moves brings the file back to its place. -/
theorem undone {commit : Commit} (reaches : origin.Reaches output root)
    (visible : Visible root names origin)
    (tiered : Tiered root names origin commit.volume.disk commit.placed commit.saved height laid) :
    Tiered root names origin (Package.undone output commit) [] [] 0 [] := by
  have withdrawn (placed : List Path) {disk : Disk} {laid : List Nat}
      (tiered : Tiered root names origin disk placed commit.saved height laid) :
      Tiered root names origin (placed.foldl (Commit.withdraw output) disk) [] commit.saved height
        [] := by
    induction placed generalizing disk laid with
    | nil =>
        have none := tiered.placedRanks
        rw [List.filterMap_nil] at none
        rwa [none]
    | cons path rest ih =>
        obtain ⟨left, tiered⟩ := tiered.withdraw reaches
        exact ih tiered
  have restored (saved : List Path) {disk : Disk} {height : Nat}
      (tiered : Tiered root names origin disk [] saved height []) :
      Tiered root names origin (saved.foldl (Commit.restore output) disk) [] [] 0 [] := by
    induction saved generalizing disk height with
    | nil =>
        have none := congrArg List.length tiered.savedRanks
        rw [List.filterMap_nil, List.length_reverse, List.length_range] at none
        rwa [← none] at tiered
    | cons path rest ih =>
        obtain ⟨lower, tiered⟩ := tiered.restore reaches visible
        exact ih tiered
  exact restored commit.saved (withdrawn commit.placed tiered)

end Tiered

end Commit

end Elastic
