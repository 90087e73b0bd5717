namespace Elastic

inductive Stage
  | constructed
  | generated
  | compiled
  | packaged
  | failed
deriving DecidableEq, Repr, Inhabited

namespace Stage

def text : Stage → String
  | .constructed => "constructed"
  | .generated => "generated"
  | .compiled => "compiled"
  | .packaged => "packaged"
  | .failed => "failed"

def all : List Stage := [.constructed, .generated, .compiled, .packaged, .failed]

def ofText? (name : String) : Option Stage :=
  all.find? (·.text = name)

end Stage

end Elastic
