import Elastic.Diagnostic.Basic

namespace Elastic

/-! A log of diagnostics. Taking the diagnostics out leaves the counts as they are. -/

structure DiagnosticLog where
  pending : List Diagnostic := []
  errors : Nat := 0
  warnings : Nat := 0
deriving DecidableEq, Repr, Inhabited

namespace DiagnosticLog

def empty : DiagnosticLog := {}

def emit (log : DiagnosticLog) (diagnostic : Diagnostic) : DiagnosticLog where
  pending := log.pending ++ [diagnostic]
  errors := log.errors + if diagnostic.severity = .error then 1 else 0
  warnings := log.warnings + if diagnostic.severity = .warning then 1 else 0

def emitAll (log : DiagnosticLog) (diagnostics : List Diagnostic) : DiagnosticLog :=
  diagnostics.foldl emit log

def hasErrors (log : DiagnosticLog) : Bool := 0 < log.errors

def takeAll (log : DiagnosticLog) : List Diagnostic × DiagnosticLog :=
  (log.pending, { log with pending := [] })

end DiagnosticLog

end Elastic
