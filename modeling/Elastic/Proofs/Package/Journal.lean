import Elastic.Proofs.Package.Staging

namespace Elastic

open Disk

/-! The journal of a commit. After every call it says how the disk differs from the one that the
commit started on, so that undoing its entries one by one leads back to that. A file is lost on the
way only where the query for it failed. -/

namespace Commit

variable {root : Location} {output path : Path} {origin disk after : Disk}
  {lapse : Prop} {lost placed saved : List Path}

/-- How a disk differs from the one that a commit started on. If queries may lapse, then a file that
was placed may have replaced one that was not set aside, which is lost when the new one goes. -/
structure Journal (root : Location) (lapse : Prop) (origin disk : Disk)
    (lost placed saved : List Path) : Prop where
  wider : origin.Wider disk
  placeable : ∀ path, path ∈ placed ∨ path ∈ saved → Placeable path
  placedOnce : placed.Nodup
  savedOnce : saved.Nodup
  new : ∀ path ∈ placed, disk.Leads root (Region.home.spot path) ∧
    (disk.file? (Region.home.location root path)).isSome = true ∧
    (path ∉ saved → lapse ∨ origin.file? (Region.home.location root path) = none)
  old : ∀ path ∈ saved, disk.Admits root (Region.home.spot path) ∧
    disk.Leads root (Region.backup.spot path) ∧
    (origin.file? (Region.home.location root path)).isSome = true ∧
    disk.file? (Region.backup.location root path) =
      origin.file? (Region.home.location root path) ∧
    (path ∉ placed → disk.node? (Region.home.location root path) = none)
  rest : ∀ location, ¬ Internal root location →
    (∀ path, path ∈ placed ∨ path ∈ saved → location ≠ Region.home.location root path) →
    disk.file? location = origin.file? location ∨
      lapse ∧ (∃ path ∈ lost, location = Region.home.location root path) ∧
        disk.file? location = none

namespace Journal

theorem start (root : Location) (lapse : Prop) (disk : Disk) :
    Journal root lapse disk disk [] [] [] where
  wider := .refl disk
  placeable := nofun
  placedOnce := .nil
  savedOnce := .nil
  new := nofun
  old := nofun
  rest _ _ _ := .inl rfl

theorem file?_eq (journal : Journal root lapse origin disk [] placed saved) {location : Location}
    (outside : ¬ Internal root location)
    (apart : ∀ path, path ∈ placed ∨ path ∈ saved → location ≠ Region.home.location root path) :
    disk.file? location = origin.file? location :=
  (journal.rest location outside apart).resolve_right
    fun ⟨_, ⟨_, member, _⟩, _⟩ => List.not_mem_nil member

theorem file?_home (journal : Journal root lapse origin disk [] placed saved)
    (placeable : Placeable path) (unplaced : path ∉ placed) (unsaved : path ∉ saved) :
    disk.file? (Region.home.location root path) =
      origin.file? (Region.home.location root path) := by
  apply journal.file?_eq (Region.not_internal_home placeable)
  rintro other member same
  obtain rfl := (Region.location_injective placeable (journal.placeable other member) same).2
  exact member.elim unplaced unsaved

theorem unsaved (journal : Journal root lapse origin disk [] placed saved)
    (unplaced : path ∉ placed) (held : (disk.file? (Region.home.location root path)).isSome = true)
    : path ∉ saved := by
  intro member
  obtain ⟨-, -, -, -, gone⟩ := journal.old path member
  simp [file?, gone unplaced] at held

theorem makes {names : List String} (journal : Journal root lapse origin disk [] placed saved)
    (makes : Makes root names disk after)
    (clear : ∀ path ∈ saved, path ∉ placed → ¬ Region.home.spot path <+: names) :
    Journal root lapse origin after [] placed saved where
  wider := journal.wider.trans makes.wider
  placeable := journal.placeable
  placedOnce := journal.placedOnce
  savedOnce := journal.savedOnce
  new path member := by
    obtain ⟨leads, held, fresh⟩ := journal.new path member
    exact ⟨leads.wider makes.wider, by rwa [makes.file?], fresh⟩
  old path member := by
    obtain ⟨admits, leads, held, same, gone⟩ := journal.old path member
    refine ⟨admits.wider makes.wider, leads.wider makes.wider, held, by rwa [makes.file?], ?_⟩
    intro unplaced
    rcases makes.nodes (Region.home.location root path) with unchanged | ⟨-, -, inner, -, sub, at_⟩
    · rw [unchanged, gone unplaced]
    · obtain rfl := List.append_cancel_left at_
      exact absurd sub (clear path member unplaced)
  rest location outside apart := by
    rw [makes.file?]
    exact journal.rest location outside apart

theorem save (journal : Journal root lapse origin disk [] placed saved) (placeable : Placeable path)
    (unplaced : path ∉ placed) (leads : disk.Leads root (Region.home.spot path))
    (admits : disk.Admits root (Region.backup.spot path))
    (moves : Moves root .home .backup path disk after) :
    Journal root lapse origin after [] placed (path :: saved) := by
  have unsaved := journal.unsaved unplaced moves.held
  have before := journal.file?_home placeable unplaced unsaved
  have own (other : Path) (member : other ∈ placed ∨ other ∈ saved) : other ≠ path := by
    rintro rfl
    exact member.elim unplaced unsaved
  constructor
  case wider => exact journal.wider.trans moves.wider
  case placeable =>
    intro other member
    by_cases same : other = path
    · rwa [same]
    · exact journal.placeable other (by simpa [same] using member)
  case placedOnce => exact journal.placedOnce
  case savedOnce => exact List.nodup_cons.2 ⟨unsaved, journal.savedOnce⟩
  case new =>
    intro other member
    obtain ⟨leads, held, fresh⟩ := journal.new other member
    rw [moves.file? placeable (journal.placeable other (.inl member))
      (.inl (own other (.inl member)))]
    exact ⟨leads.wider moves.wider, held, fun out => fresh fun kept =>
      out (List.mem_cons_of_mem _ kept)⟩
  case old =>
    intro other member
    rcases List.mem_cons.1 member with rfl | member
    · refine ⟨(Region.admits_of_leads leads admits).wider moves.wider,
        admits.1.wider moves.wider, ?_, ?_, fun _ => moves.leaves⟩
      · rw [← before]
        exact moves.held
      · rw [moves.arrives, before]
    · have kept := journal.placeable other (.inr member)
      obtain ⟨admits, leads, held, same, gone⟩ := journal.old other member
      rw [moves.file? placeable kept (.inl (own other (.inr member))),
        moves.node? placeable kept (.inl (own other (.inr member)))]
      exact ⟨admits.wider moves.wider, leads.wider moves.wider, held, same, gone⟩
  case rest =>
    intro location outside apart
    rw [moves.file?_visible outside (apart path (.inr List.mem_cons_self))]
    exact journal.rest location outside fun other member =>
      apart other (member.imp_right (List.mem_cons_of_mem _))

theorem place (journal : Journal root lapse origin disk [] placed saved)
    (placeable : Placeable path) (unplaced : path ∉ placed)
    (admits : disk.Admits root (Region.home.spot path))
    (moves : Moves root .staging .home path disk after)
    (fresh : path ∉ saved → lapse ∨ origin.file? (Region.home.location root path) = none) :
    Journal root lapse origin after [] (path :: placed) saved := by
  have own (other : Path) (member : other ∈ placed) : other ≠ path := by
    rintro rfl
    exact unplaced member
  constructor
  case wider => exact journal.wider.trans moves.wider
  case placeable =>
    intro other member
    by_cases same : other = path
    · rwa [same]
    · exact journal.placeable other (by simpa [same] using member)
  case placedOnce => exact List.nodup_cons.2 ⟨unplaced, journal.placedOnce⟩
  case savedOnce => exact journal.savedOnce
  case new =>
    intro other member
    rcases List.mem_cons.1 member with rfl | member
    · refine ⟨admits.1.wider moves.wider, ?_, fresh⟩
      rw [moves.arrives]
      exact moves.held
    · obtain ⟨leads, held, fresh⟩ := journal.new other member
      rw [moves.file? placeable (journal.placeable other (.inl member)) (.inl (own other member))]
      exact ⟨leads.wider moves.wider, held, fresh⟩
  case old =>
    intro other member
    have kept := journal.placeable other (.inr member)
    obtain ⟨admits, leads, held, same, gone⟩ := journal.old other member
    refine ⟨admits.wider moves.wider, leads.wider moves.wider, held, ?_, fun out => ?_⟩
    · rw [moves.file? placeable kept (.inr (by decide)), same]
    · rw [List.mem_cons, not_or] at out
      rw [moves.node? placeable kept (.inl out.1), gone out.2]
  case rest =>
    intro location outside apart
    rw [moves.file?_visible outside (apart path (.inl List.mem_cons_self))]
    exact journal.rest location outside fun other member =>
      apart other (member.imp_left (List.mem_cons_of_mem _))

theorem withdraw (journal : Journal root lapse origin disk lost (path :: placed) saved)
    (reaches : origin.Reaches output root) :
    Journal root lapse origin (withdraw output disk path) (path :: lost) placed saved := by
  have placeable := journal.placeable path (.inl List.mem_cons_self)
  obtain ⟨unplaced, placedOnce⟩ := List.nodup_cons.1 journal.placedOnce
  obtain ⟨leads, held, fresh⟩ := journal.new path List.mem_cons_self
  obtain ⟨contents, found⟩ := Option.isSome_iff_exists.1 held
  have inner := Region.home.location_ne_nil root path
  have wider := wider_erase inner (isDirectoryAt_of_file? found)
  have removed : Commit.withdraw output disk path =
      disk.erase (Region.home.location root path) := by
    have reached := journal.wider.reaches reaches
    have called := (removeFile_within reached
      (Region.within reached.named .home placeable)).2 ⟨leads, held, rfl⟩
    simp only [Region.base] at called
    rw [Commit.withdraw, called]
    rfl
  rw [removed]
  constructor
  case wider => exact journal.wider.trans wider
  case placeable =>
    exact fun other member =>
      journal.placeable other (member.imp_left (List.mem_cons_of_mem _))
  case placedOnce => exact placedOnce
  case savedOnce => exact journal.savedOnce
  case new =>
    intro other member
    have kept := journal.placeable other (.inl (List.mem_cons_of_mem _ member))
    obtain ⟨leads, held, fresh⟩ := journal.new other (List.mem_cons_of_mem _ member)
    rw [file?_erase _ _ inner, if_neg]
    · exact ⟨leads.wider wider, held, fresh⟩
    · intro same
      obtain rfl := (Region.location_injective kept placeable same).2
      exact unplaced member
  case old =>
    intro other member
    have kept := journal.placeable other (.inr member)
    obtain ⟨admits, leads, held, same, gone⟩ := journal.old other member
    refine ⟨admits.wider wider, leads.wider wider, held, ?_, fun out => ?_⟩
    · rw [file?_erase _ _ inner, if_neg, same]
      exact fun same => absurd (Region.location_injective kept placeable same).1 (by decide)
    · rw [node?_erase _ _ inner]
      split_ifs with here
      · rfl
      · refine gone fun member => (List.mem_cons.1 member).elim ?_ out
        rintro rfl
        exact here rfl
  case rest =>
    intro location outside apart
    rw [file?_erase _ _ inner]
    split_ifs with here
    · subst here
      have unsaved : path ∉ saved := fun member => apart path (.inr member) rfl
      rcases fresh unsaved with lapse | missing
      · exact .inr ⟨lapse, ⟨path, List.mem_cons_self, rfl⟩, rfl⟩
      · exact .inl missing.symm
    · have known := journal.rest location outside fun other member => by
        rcases member with member | member
        · rcases List.mem_cons.1 member with rfl | member
          · exact here
          · exact apart other (.inl member)
        · exact apart other (.inr member)
      refine known.imp_right fun ⟨lapse, ⟨other, member, same⟩, gone⟩ => ?_
      exact ⟨lapse, ⟨other, List.mem_cons_of_mem _ member, same⟩, gone⟩

theorem restore (journal : Journal root lapse origin disk lost [] (path :: saved))
    (reaches : origin.Reaches output root) :
    Journal root lapse origin (restore output disk path) lost [] saved := by
  have placeable := journal.placeable path (.inr List.mem_cons_self)
  obtain ⟨unsaved, savedOnce⟩ := List.nodup_cons.1 journal.savedOnce
  obtain ⟨admits, leads, held, same, gone⟩ := journal.old path List.mem_cons_self
  obtain ⟨contents, found⟩ := Option.isSome_iff_exists.1 held
  rw [found] at same
  have free : disk.isDirectoryAt (Region.home.location root path) = false := by
    simp [isDirectoryAt, gone]
  have moves := Moves.of_move placeable (by decide) same free
  have moved : Commit.restore output disk path =
      (disk.erase (Region.backup.location root path)).put (Region.home.location root path)
        (.file contents) := by
    have reached := journal.wider.reaches reaches
    have called := (moveFile_within reached (Region.within reached.named .backup placeable)
      (Region.within reached.named .home placeable)).2 ⟨contents, leads, same, admits, free, rfl⟩
    simp only [Region.base] at called
    rw [Commit.restore, called]
    rfl
  rw [moved]
  constructor
  case wider => exact journal.wider.trans moves.wider
  case placeable =>
    exact fun other member =>
      journal.placeable other (member.imp_right (List.mem_cons_of_mem _))
  case placedOnce => exact .nil
  case savedOnce => exact savedOnce
  case new =>
    intro other member
    exact absurd member List.not_mem_nil
  case old =>
    intro other member
    have apart : other ≠ path := by
      rintro rfl
      exact unsaved member
    have kept := journal.placeable other (.inr (List.mem_cons_of_mem _ member))
    obtain ⟨admits, leads, held, same, gone⟩ := journal.old other (List.mem_cons_of_mem _ member)
    rw [moves.file? placeable kept (.inl apart), moves.node? placeable kept (.inl apart)]
    exact ⟨admits.wider moves.wider, leads.wider moves.wider, held, same, gone⟩
  case rest =>
    intro location outside apart
    by_cases here : location = Region.home.location root path
    · subst here
      exact .inl (by rw [moves.arrives, same, found])
    · rw [moves.file?_visible outside here]
      apply journal.rest location outside
      intro other member
      rcases List.mem_cons.1 (member.resolve_left List.not_mem_nil) with rfl | member
      · exact here
      · exact apart other (.inr member)

theorem foldl_withdraw (reaches : origin.Reaches output root)
    (journal : Journal root lapse origin disk lost placed saved) :
    Journal root lapse origin (placed.foldl (Commit.withdraw output) disk) (placed.reverse ++ lost)
      [] saved := by
  induction placed generalizing disk lost with
  | nil => exact journal
  | cons path rest ih =>
      rw [List.reverse_cons, List.append_assoc]
      exact ih (journal.withdraw reaches)

theorem foldl_restore (reaches : origin.Reaches output root)
    (journal : Journal root lapse origin disk lost [] saved) :
    Journal root lapse origin (saved.foldl (Commit.restore output) disk) lost [] [] := by
  induction saved generalizing disk with
  | nil => exact journal
  | cons path rest ih => exact ih (journal.restore reaches)

end Journal

end Commit

end Elastic
