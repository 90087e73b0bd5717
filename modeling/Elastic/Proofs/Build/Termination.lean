import Elastic.Proofs.Build.Catalogue

namespace Elastic

/-! Elaboration ends by itself. Every module that comes under construction is one of the library's
that was not, so that the bound on how many are under construction at once is never met. -/

namespace Library

def waiting (library : Library) (running : List String) : List ModuleDecl :=
  library.modules.filter fun decl => decl.name ∉ running

theorem waiting_lt {library : Library} {running : List String} {name : String} {decl : ModuleDecl}
    (declared : library.module? name = some decl) (apart : name ∉ running) :
    (library.waiting (running ++ [name])).length < (library.waiting running).length := by
  have named := Elaboration.name_of_module? declared
  have narrower : library.waiting (running ++ [name]) =
      (library.waiting running).filter fun decl => decl.name ≠ name := by
    unfold waiting
    rw [List.filter_filter]
    congr 1
    funext decl
    simp [and_comm]
  rw [narrower]
  refine List.length_filter_lt_length_iff_exists.2 ⟨decl, ?_, by simp [named]⟩
  exact List.mem_filter.2 ⟨List.mem_of_find?_eq_some declared, by simp [named, apart]⟩

theorem length_waiting (library : Library) :
    (library.waiting []).length = library.modules.length := by
  simp [waiting]

theorem length_waiting_le (library : Library) (running : List String) :
    (library.waiting running).length ≤ library.modules.length :=
  List.length_filter_le _ _

end Library

namespace Elaboration

variable {setting : Setting}

/-- The number of a module, constructing it if need be, whatever the number of modules that are
under construction. -/
def unbounded (setting : Setting) (running : List String) (name : String) :
    Elaborating ModuleId := do
  match (← get).finished? name with
  | some id => return id
  | none =>
    match _ : running.dropWhile (· ≠ name) with
    | first :: inner => throw (.recursiveInstantiation (first :: inner ++ [name]))
    | [] =>
      match _ : setting.library.module? name with
      | none => throw (.unknownModule name)
      | some decl => constructModule setting (unbounded setting (running ++ [name])) decl
termination_by (setting.library.waiting running).length
decreasing_by exact Library.waiting_lt ‹_› (not_mem_of_dropWhile ‹_›)

theorem unbounded_eq (running : List String) (name : String) :
    unbounded setting running name = (do
      match (← get).finished? name with
      | some id => return id
      | none =>
        match running.dropWhile (· ≠ name) with
        | first :: inner => throw (.recursiveInstantiation (first :: inner ++ [name]))
        | [] =>
          match setting.library.module? name with
          | none => throw (.unknownModule name)
          | some decl => constructModule setting (unbounded setting (running ++ [name])) decl) := by
  rw [unbounded]
  congr 1
  funext shared
  cases shared.finished? name with
  | some id => rfl
  | none =>
      dsimp only
      split <;> rename_i ended <;> rw [ended]
      split <;> rename_i declared <;> rw [declared]

theorem elaborate_eq_unbounded (fuel : Nat) (running : List String)
    (enough : (setting.library.waiting running).length < fuel) :
    Elaboration.elaborate setting fuel running = unbounded setting running := by
  induction fuel generalizing running with
  | zero => cases enough
  | succ fuel induction =>
      funext name
      rw [unbounded_eq, Elaboration.elaborate]
      congr 1
      funext shared
      cases shared.finished? name with
      | some id => rfl
      | none =>
          cases ended : running.dropWhile (· ≠ name) with
          | cons first inner => rfl
          | nil =>
              cases declared : setting.library.module? name with
              | none => rfl
              | some decl =>
                  have fewer := Library.waiting_lt declared (not_mem_of_dropWhile ended)
                  dsimp only
                  rw [induction _ (Nat.lt_of_lt_of_le fewer (Nat.le_of_lt_succ enough))]

end Elaboration

end Elastic
