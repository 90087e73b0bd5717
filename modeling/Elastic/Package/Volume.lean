import Elastic.Build.Error
import Elastic.Disk.Basic

namespace Elastic

/-! A disk that may refuse calls and leave queries unanswered. Whatever the disk itself would refuse
is refused, and so is every call that the schedule of refusals says. -/

structure Volume where
  disk : Disk
  /-- Whether the calls to come are refused, in order; those past the end are not. -/
  refusals : List Bool := []
  /-- Whether the queries to come fail, in order; those past the end do not. -/
  unanswered : List Bool := []
deriving DecidableEq, Inhabited

abbrev Storing (α : Type) := ExceptT BuildError (StateM Volume) α

namespace Storing

/-- Calls an operation. A refusal is an error on the given path and changes nothing. -/
def call (path : Path) (operation : Disk → Option Disk) : Storing Unit := fun volume =>
  let rest := volume.refusals.tail
  match if volume.refusals.headD false then none else operation volume.disk with
  | none => (.error (.io path), { volume with refusals := rest })
  | some disk => (.ok (), { volume with disk := disk, refusals := rest })

/-- Does an operation that is not in the schedule, if the disk allows it. -/
def consistent (operation : Disk → Option Disk) : Storing Unit :=
  modify fun volume => { volume with disk := (operation volume.disk).getD volume.disk }

/-- Asks a question of the disk, and goes on with the fallback where the query fails. -/
def ask (fallback : α) (question : Disk → α) : Storing α := fun volume =>
  (.ok (if volume.unanswered.headD false then fallback else question volume.disk),
    { volume with unanswered := volume.unanswered.tail })

def makeParent (path : Path) : Storing Unit :=
  match Path.parent? path with
  | none => return
  | some parent => call parent (Disk.makeDirectories parent)

def store (path : Path) (contents : ByteArray) : Storing Unit := do
  makeParent path
  call path (Disk.writeFile path contents)

end Storing

end Elastic
