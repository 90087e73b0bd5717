import Elastic.Build.Builder

namespace Elastic

/-! The tables of a generation only grow, so that a number once given keeps its meaning. -/

namespace TyPool

def Grows (before after : TyPool) : Prop :=
  ∃ more, after.types = before.types ++ more

theorem Grows.refl (pool : TyPool) : pool.Grows pool :=
  ⟨#[], by simp⟩

theorem Grows.trans {first second third : TyPool} (one : first.Grows second)
    (other : second.Grows third) : first.Grows third := by
  obtain ⟨more, one⟩ := one
  obtain ⟨more', other⟩ := other
  exact ⟨more ++ more', by rw [other, one, Array.append_assoc]⟩

theorem grows_intern (pool : TyPool) (ty : Ty) : pool.Grows (pool.intern ty).2 := by
  unfold intern
  split
  · exact .refl pool
  · exact ⟨#[ty], Array.push_eq_append⟩

theorem Grows.find? {before after : TyPool} (grows : before.Grows after) {ty : Ty} {id : TyId}
    (found : before.find? ty = some id) : after.find? ty = some id := by
  obtain ⟨more, grows⟩ := grows
  unfold TyPool.find? at found ⊢
  rw [grows, Array.findIdx?_append, found]
  rfl

theorem Grows.get? {before after : TyPool} (grows : before.Grows after) {id : TyId} {ty : Ty}
    (known : before.get? id = some ty) : after.get? id = some ty := by
  obtain ⟨more, grows⟩ := grows
  obtain ⟨bound, equal⟩ := Array.getElem?_eq_some_iff.1 known
  simp only [TyPool.get?, grows]
  rw [Array.getElem?_append_left bound]
  exact known

theorem Grows.size_le {before after : TyPool} (grows : before.Grows after) :
    before.size ≤ after.size := by
  obtain ⟨more, grows⟩ := grows
  simp [TyPool.size, grows]

theorem get?_of_find? {pool : TyPool} {ty : Ty} {id : TyId} (found : pool.find? ty = some id) :
    pool.get? id = some ty := by
  obtain ⟨bound, equal, -⟩ := Array.findIdx?_eq_some_iff_getElem.1 found
  simpa [get?, bound] using equal

theorem get_of_get? {pool : TyPool} {id : TyId} {ty : Ty} (known : pool.get? id = some ty) :
    pool.get id = ty := by
  rw [get, known, Option.getD_some]

theorem get_of_find? {pool : TyPool} {ty : Ty} {id : TyId} (found : pool.find? ty = some id) :
    pool.get id = ty :=
  get_of_get? (get?_of_find? found)

theorem lt_size_of_get? {pool : TyPool} {id : TyId} {ty : Ty} (known : pool.get? id = some ty) :
    id < pool.size :=
  (Array.getElem?_eq_some_iff.1 known).1

theorem lt_size_of_find? {pool : TyPool} {ty : Ty} {id : TyId} (found : pool.find? ty = some id) :
    id < pool.size :=
  lt_size_of_get? (get?_of_find? found)

theorem exists_get?_of_lt_size {pool : TyPool} {id : TyId} (bound : id < pool.size) :
    ∃ ty, pool.get? id = some ty :=
  ⟨_, Array.getElem?_eq_some_iff.2 ⟨bound, rfl⟩⟩

theorem find?_intern (pool : TyPool) (ty : Ty) :
    (pool.intern ty).2.find? ty = some (pool.intern ty).1 := by
  unfold intern
  split
  · assumption
  · rename_i absent
    simp only [find?, size, Array.findIdx?_push] at absent ⊢
    simp [absent]

theorem Distinct.find?_eq_some {pool : TyPool} (distinct : pool.Distinct) {id : TyId} {ty : Ty}
    (known : pool.get? id = some ty) : pool.find? ty = some id := by
  cases found : pool.find? ty with
  | none =>
      have absent := Array.findIdx?_eq_none_iff.1 found ty (Array.mem_of_getElem? known)
      simp at absent
  | some first =>
      have held := get?_of_find? found
      exact congrArg some (distinct first id (lt_size_of_get? held) (held.trans known.symm))

theorem distinct_empty : ({} : TyPool).Distinct :=
  fun _ _ bound => absurd bound (Nat.not_lt_zero _)

theorem Distinct.intern {pool : TyPool} (distinct : pool.Distinct) (ty : Ty) :
    (pool.intern ty).2.Distinct := by
  unfold TyPool.intern
  split
  · exact distinct
  · rename_i absent
    have new (id : TyId) : pool.get? id ≠ some ty := fun known => by
      rw [distinct.find?_eq_some known] at absent
      cases absent
    have held (id : TyId) : get? ⟨pool.types.push ty⟩ id =
        if id = pool.size then some ty else pool.get? id := by
      simp only [get?, size, Array.getElem?_push]
      rfl
    intro first second bound same
    rw [held, held] at same
    split at same <;> split at same
    · rename_i one other
      rw [one, other]
    · exact absurd same.symm (new second)
    · exact absurd same (new first)
    · rename_i apart _
      change first < (pool.types.push ty).size at bound
      rw [Array.size_push] at bound
      exact distinct first second (Nat.lt_of_le_of_ne (Nat.le_of_lt_succ bound) apart) same

end TyPool

namespace Names

def Grows (before after : Names) : Prop :=
  ∀ ident text, before.text? ident = some text → after.text? ident = some text

theorem Grows.refl (names : Names) : names.Grows names :=
  fun _ _ known => known

theorem Grows.trans {first second third : Names} (one : first.Grows second)
    (other : second.Grows third) : first.Grows third :=
  fun ident text known => other ident text (one ident text known)

theorem grows_intern (names : Names) (text : String) : names.Grows (names.intern text).2 :=
  fun _ _ known => text?_intern_of_text? text known

theorem text_of_text? {names : Names} {ident : Ident} {text : String}
    (known : names.text? ident = some text) : names.text ident = text := by
  simp [Names.text, known]

def Distinct (names : Names) : Prop :=
  ∀ first second text, names.text? first = some text → names.text? second = some text →
    first = second

theorem distinct_empty : ({} : Names).Distinct := by
  intro first second text held
  simp [text?] at held

theorem Distinct.find?_eq_some {names : Names} (distinct : names.Distinct) {ident : Ident}
    {text : String} (known : names.text? ident = some text) : names.find? text = some ident := by
  cases found : names.find? text with
  | none =>
      have absent := Array.findIdx?_eq_none_iff.1 found text (Array.mem_of_getElem? known)
      simp at absent
  | some first =>
      obtain ⟨bound, equal, -⟩ := Array.findIdx?_eq_some_iff_getElem.1 found
      refine congrArg some (distinct first ident text ?_ known)
      simpa [text?, bound] using equal

theorem Distinct.intern {names : Names} (distinct : names.Distinct) (text : String) :
    (names.intern text).2.Distinct := by
  unfold Names.intern
  split
  · exact distinct
  · rename_i absent
    have new (ident : Ident) : names.text? ident ≠ some text := fun known => by
      rw [distinct.find?_eq_some known] at absent
      cases absent
    have held (ident : Ident) : text? ⟨names.texts.push text⟩ ident =
        if ident = names.size then some text else names.text? ident := by
      simp only [text?, size, Array.getElem?_push]
      rfl
    intro first second name one other
    rw [held] at one other
    split at one <;> split at other
    · rename_i last last'
      rw [last, last']
    · exact absurd (other.trans one.symm) (new second)
    · exact absurd (one.trans other.symm) (new first)
    · exact distinct first second name one other

end Names

namespace Arena

theorem get?_empty (id : Nat) : ({} : Arena α).get? id = none := by
  simp [get?]

def Grows (before after : Arena α) : Prop :=
  ∀ id item, before.get? id = some item → after.get? id = some item

theorem lt_size_of_get? {arena : Arena α} {id : Nat} {item : α} (held : arena.get? id = some item) :
    id < arena.size :=
  (Array.getElem?_eq_some_iff.1 held).1

theorem exists_get?_of_lt_size {arena : Arena α} {id : Nat} (bound : id < arena.size) :
    ∃ item, arena.get? id = some item :=
  ⟨_, Array.getElem?_eq_some_iff.2 ⟨bound, rfl⟩⟩

theorem Grows.size_le {before after : Arena α} (grows : before.Grows after) :
    before.size ≤ after.size := by
  refine Nat.le_of_not_lt fun smaller => ?_
  obtain ⟨item, held⟩ := exists_get?_of_lt_size smaller
  exact Nat.lt_irrefl _ (lt_size_of_get? (grows _ _ held))

theorem set_set (arena : Arena α) (id : Nat) (first second : α) :
    (arena.set id first).set id second = arena.set id second := by
  simp [set]

theorem mem_entries {arena : Arena α} {id : Nat} {item : α} :
    (id, item) ∈ arena.entries ↔ arena.get? id = some item := by
  simp only [entries, toList, get?, List.mem_map, Prod.mk.injEq, Prod.exists]
  constructor
  · intro known
    obtain ⟨_, _, member, rfl, rfl⟩ := known
    rw [← Array.getElem?_toList]
    exact List.mk_mem_zipIdx_iff_getElem?.1 member
  · intro held
    rw [← Array.getElem?_toList] at held
    exact ⟨item, id, List.mk_mem_zipIdx_iff_getElem?.2 held, rfl, rfl⟩

theorem mem_toList {arena : Arena α} {item : α} :
    item ∈ arena.toList ↔ ∃ id, arena.get? id = some item := by
  simp only [toList, get?, List.mem_iff_getElem?, Array.getElem?_toList]

theorem map_fst_entries (arena : Arena α) : arena.entries.map (·.1) = arena.ids := by
  simp only [entries, List.map_map, ids, size, toList, List.range_eq_range']
  exact List.zipIdx_map_snd 0 arena.items.toList

theorem grows_push (arena : Arena α) (item : α) : arena.Grows (arena.push item) := by
  intro id other held
  have bound := lt_size_of_get? held
  rw [get?_push, if_neg (Nat.ne_of_lt bound), held]

end Arena

end Elastic
