import Elastic.Build.Error

namespace Elastic

inductive SimError
  | combinationalLoop (path signal : String)
  | unsupportedBuiltin (path tag : String)
  | unsupported (reason : String)
  | unknownInput (name : String)
  | unknownEndpoint (path : String)
  | unknownRole (path role : String)
  | wrongDirection (path role expected : String)
  | unknownMemory (path : String)
  | addressOutOfRange (path : String) (address : UInt64) (depth : Nat)
  | invalidValue (value ty reason : String)
  | internal (message : String)
deriving DecidableEq, Repr, Inhabited

namespace SimError

def message : SimError → String
  | .combinationalLoop path signal => "combinational loop through " ++ signal ++ " in " ++ path
  | .unsupportedBuiltin path tag =>
    "no simulation model for builtin '" ++ tag ++ "' at " ++ path
  | .unsupported reason => "unsupported: " ++ reason
  | .unknownInput name => "unknown top-level input '" ++ name ++ "'"
  | .unknownEndpoint path => "no host endpoint at '" ++ path ++ "'"
  | .unknownRole path role => "host endpoint '" ++ path ++ "' has no role '" ++ role ++ "'"
  | .wrongDirection path role expected =>
    "role '" ++ role ++ "' of '" ++ path ++ "' is not " ++ expected ++ " by the host"
  | .unknownMemory path => "no memory at '" ++ path ++ "'"
  | .addressOutOfRange path address depth =>
    "address " ++ toString address.toNat ++ " out of range for '" ++ path ++ "' (depth " ++
      toString depth ++ ")"
  | .invalidValue value ty reason => "value " ++ value ++ " does not fit " ++ ty ++ ": " ++ reason
  | .internal message => internalFault message

end SimError

end Elastic
