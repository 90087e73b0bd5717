import Elastic.Proofs.Sim.Stability
import Mathlib.Data.List.Induction

namespace Elastic

/-! What the monitor finds in a sequence of observations, of any channels in any order. It holds
each observation against the one before it of the same channel, and against no other. -/

namespace Observation

/-- The observation leaves a payload waiting. -/
structure Stalls (seen : Observation) (held : SimValue) : Prop where
  valid : seen.valid = true
  ready : seen.ready = false
  data : seen.data = some held

/-- In a sequence, the observation is the last one of a channel. -/
def Ends (former : Observation) (site : ChannelSite) (seen : List Observation) : Prop :=
  former.site = site ∧
    ∃ earlier later, seen = earlier ++ former :: later ∧ site ∉ later.map (·.site)

/-- What is wrong with an observation that comes after another one of its channel. -/
inductive Breaks (former one : Observation) : ViolationKind → Prop
  | dropped {held : SimValue} (stalls : former.Stalls held) (low : one.valid = false) :
      Breaks former one .validDropped
  | changed {held now : SimValue} (stalls : former.Stalls held) (high : one.valid = true)
      (data : one.data = some now) (differs : now ≠ held) : Breaks former one .dataChanged

/-- What is wrong with an observation that comes after a sequence of them. -/
def Faulty (earlier : List Observation) (one : Observation) (kind : ViolationKind) : Prop :=
  ∃ former : Observation, former.Ends one.site earlier ∧ Breaks former one kind

/-- The faulty observations of a sequence, in order. -/
inductive Finds : List Observation → List (Observation × ViolationKind) → Prop
  | nil : Finds [] []
  | passed {earlier : List Observation} {found : List (Observation × ViolationKind)}
      {one : Observation} (finds : Finds earlier found) (fine : ∀ kind, ¬ Faulty earlier one kind) :
      Finds (earlier ++ [one]) found
  | broken {earlier : List Observation} {found : List (Observation × ViolationKind)}
      {one : Observation} {kind : ViolationKind} (finds : Finds earlier found)
      (faulty : Faulty earlier one kind) : Finds (earlier ++ [one]) (found ++ [(one, kind)])

def violation (one : Observation) (kind : ViolationKind) : Violation :=
  ⟨one.cycle, one.path, one.site.2, kind⟩

variable {former one : Observation} {site : ChannelSite} {earlier seen : List Observation}
  {kind : ViolationKind} {held : SimValue} {found : List (Observation × ViolationKind)}

theorem waiting?_iff : Monitor.waiting? one = some held ↔ one.Stalls held :=
  Monitor.waiting?_eq_some.trans
    ⟨fun ⟨valid, ready, data⟩ => ⟨valid, ready, data⟩,
      fun ⟨valid, ready, data⟩ => ⟨valid, ready, data⟩⟩

theorem not_ends_nil : ¬ former.Ends site [] := by
  rintro ⟨-, before, after, parts, -⟩
  exact List.append_ne_nil_of_right_ne_nil before (List.cons_ne_nil former after) parts.symm

theorem ends_snoc : former.Ends site (earlier ++ [one]) ↔
    if one.site = site then former = one else former.Ends site earlier := by
  constructor
  · rintro ⟨own, before, after, parts, absent⟩
    obtain rfl | ⟨rest, last, rfl⟩ := List.eq_nil_or_concat after
    · obtain ⟨rfl, rfl⟩ := List.append_singleton_inj.1 parts
      rw [if_pos own]
    · rw [List.concat_eq_append, ← List.cons_append, ← List.append_assoc,
        List.append_singleton_inj] at parts
      obtain ⟨rfl, rfl⟩ := parts
      rw [List.concat_eq_append, List.map_append, List.mem_append, not_or] at absent
      rw [if_neg fun same => absent.2 (List.mem_singleton.2 same.symm)]
      exact ⟨own, before, rest, rfl, absent.1⟩
  · split
    · rename_i same
      rintro rfl
      exact ⟨same, earlier, [], rfl, List.not_mem_nil⟩
    · rename_i apart
      rintro ⟨own, before, after, rfl, absent⟩
      refine ⟨own, before, after ++ [one], by rw [List.append_assoc, List.cons_append], ?_⟩
      rw [List.map_append, List.mem_append]
      exact not_or.2 ⟨absent, fun member => apart (List.mem_singleton.1 member).symm⟩

theorem ends_filter : former.Ends site (seen.filter (·.site = site)) ↔ former.Ends site seen := by
  induction seen using List.reverseRecOn with
  | nil => rfl
  | append_singleton earlier one induction =>
      rw [List.filter_append, ends_snoc]
      by_cases same : one.site = site
      · simp [same, ends_snoc]
      · simp [same, induction]

theorem faulty_filter :
    Faulty (seen.filter (·.site = one.site)) one kind ↔ Faulty seen one kind :=
  exists_congr fun _ => and_congr_left fun _ => ends_filter

theorem Finds.filter (finds : Finds seen found) (site : ChannelSite) :
    Finds (seen.filter (·.site = site)) (found.filter (·.1.site = site)) := by
  induction finds with
  | nil => exact .nil
  | @passed earlier found one finds fine induction =>
      rw [List.filter_append]
      by_cases own : one.site = site
      · subst own
        simpa using Finds.passed induction fun kind faulty => fine kind (faulty_filter.1 faulty)
      · simpa [own] using induction
  | @broken earlier found one kind finds faulty induction =>
      rw [List.filter_append, List.filter_append]
      by_cases own : one.site = site
      · subst own
        simpa using Finds.broken induction (faulty_filter.2 faulty)
      · simpa [own] using induction

end Observation

namespace Monitor

open Observation

variable {earlier seen : List Observation} {one : Observation} {site : ChannelSite}
  {held : SimValue} {kind : ViolationKind} {found : List (Observation × ViolationKind)}

theorem held?_foldl_empty : (seen.foldl observe empty).held? site = some held ↔
    ∃ former : Observation, former.Ends site seen ∧ former.Stalls held := by
  induction seen using List.reverseRecOn with
  | nil => exact ⟨(nomatch ·), fun ⟨_, ends, _⟩ => absurd ends not_ends_nil⟩
  | append_singleton earlier one induction =>
      rw [List.foldl_append, List.foldl_cons, List.foldl_nil, held?_observe]
      simp only [ends_snoc]
      split
      · rw [exists_eq_left, waiting?_iff]
      · exact induction

/-- The monitor reports the faulty observations and no others. -/
theorem report?_eq_some {violation : Violation} :
    (seen.foldl observe empty).report? one = some violation ↔
      ∃ kind, Faulty seen one kind ∧ one.violation kind = violation := by
  unfold report?
  rw [Option.map_eq_some_iff]
  refine exists_congr fun kind => and_congr_left fun _ => ?_
  rw [Option.bind_eq_some_iff]
  constructor
  · rintro ⟨held, known, breach⟩
    obtain ⟨former, ends, stalls⟩ := held?_foldl_empty.1 known
    obtain ⟨low, rfl⟩ | ⟨now, high, data, differs, rfl⟩ := breach?_eq_some.1 breach
    · exact ⟨former, ends, .dropped stalls low⟩
    · exact ⟨former, ends, .changed stalls high data differs⟩
  · rintro ⟨former, ends, breaks⟩
    cases breaks with
    | @dropped held stalls low =>
        exact ⟨held, held?_foldl_empty.2 ⟨former, ends, stalls⟩,
          breach?_eq_some.2 (.inl ⟨low, rfl⟩)⟩
    | @changed held now stalls high data differs =>
        exact ⟨held, held?_foldl_empty.2 ⟨former, ends, stalls⟩,
          breach?_eq_some.2 (.inr ⟨now, high, data, differs, rfl⟩)⟩

theorem violations_snoc : ((earlier ++ [one]).foldl observe empty).violations =
    (earlier.foldl observe empty).violations ++
      ((earlier.foldl observe empty).report? one).toList := by
  rw [List.foldl_append, violations_foldl]
  simp [reports, Function.comp_def]

theorem violations_of_finds (finds : Finds seen found) :
    (seen.foldl observe empty).violations = found.map fun one => one.1.violation one.2 := by
  induction finds with
  | nil => rfl
  | @passed earlier found one finds fine induction =>
      have silent : (earlier.foldl observe empty).report? one = none := by
        refine Option.eq_none_iff_forall_ne_some.2 fun violation recorded => ?_
        obtain ⟨kind, faulty, -⟩ := report?_eq_some.1 recorded
        exact fine kind faulty
      rw [violations_snoc, silent, induction]
      exact List.append_nil _
  | @broken earlier found one kind finds faulty induction =>
      rw [violations_snoc, report?_eq_some.2 ⟨kind, faulty, rfl⟩, induction, List.map_append]
      rfl

theorem exists_finds (seen : List Observation) : ∃ found, Finds seen found := by
  induction seen using List.reverseRecOn with
  | nil => exact ⟨[], .nil⟩
  | append_singleton earlier one induction =>
      obtain ⟨found, finds⟩ := induction
      by_cases faulty : ∃ kind, Faulty earlier one kind
      · obtain ⟨kind, faulty⟩ := faulty
        exact ⟨_, .broken finds faulty⟩
      · exact ⟨found, .passed finds fun kind here => faulty ⟨kind, here⟩⟩

/-- The violations that the monitor records are those of the observations that come after one that
left a payload waiting on their channel, and either offer nothing or offer something else. What the
monitor records of a channel does not depend on the observations of others. -/
theorem violations_observed (seen : List Observation) :
    (∃ found, Finds seen found) ∧
    ∀ found, Finds seen found →
      (seen.foldl observe empty).violations = (found.map fun one => one.1.violation one.2) ∧
      ∀ site, ((seen.filter (·.site = site)).foldl observe empty).violations =
        (found.filter (·.1.site = site)).map fun one => one.1.violation one.2 :=
  ⟨exists_finds seen, fun _ finds =>
    ⟨violations_of_finds finds, fun site => violations_of_finds (finds.filter site)⟩⟩

end Monitor

end Elastic
