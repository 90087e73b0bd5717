import Elastic.AppId
import Elastic.Diagnostic.Basic
import Elastic.Build.Stage

namespace Elastic

/-! Why a design cannot be built. Each cause has a message, a code, a kind, and, where it arose in
one module or at one path, a scope. -/

inductive BuildError
  | unknownModule (name : String)
  | duplicate (what name : String)
  | recursiveInstantiation (cycle : List String)
  | unknownPort (module port : String)
  | portConnection (module child port problem : String)
  | portTypeMismatch (module child port expected found : String)
  | duplicateAppId (module appId : String)
  | invalidAppId (module appId : String)
  | missingRole (module role : String)
  | unexpectedRole (module role reason : String)
  | duplicateRole (module role : String)
  | roleTypeMismatch (module what expected found : String)
  | channelRebound (module : String)
  | bundleRebound (module side : String)
  | unservicedBundle (module side : String)
  | foreignHandle (module what : String)
  | constantOutOfRange (module : String) (value : UInt64) (ty : String)
  | typeMismatch (module context expected found : String)
  | fieldMismatch (module ty field problem : String)
  | unknownService (name : String)
  | unknownOperation (service operation : String)
  | unresolvedService (path service : String)
  | invalidServiceUse (module service reason : String)
  | hostChannelsUnsupported (backend scope service : String)
  | unsupportedBuiltin (backend scope tag : String)
  | outOfSequence (operation : String) (stage expected : Stage)
  | previouslyFailed (operation : String)
  | outputLocked (path : String)
  | io (path : String)
  | internal (message : String)
deriving DecidableEq, Repr, Inhabited

inductive BuildErrorKind
  | structural
  | capability
  | sequencing
  | io
  | internal
deriving DecidableEq, Repr, Inhabited

def internalFault (message : String) : String := "internal weft error: " ++ message

namespace BuildError

def message : BuildError → String
  | .unknownModule name => "unknown module '" ++ name ++ "'"
  | .duplicate what name => what ++ " '" ++ name ++ "' is declared twice"
  | .recursiveInstantiation cycle =>
    "recursive instantiation: " ++ " -> ".intercalate cycle
  | .unknownPort module port => "module '" ++ module ++ "' has no port '" ++ port ++ "'"
  | .portConnection _ child port problem =>
    "port '" ++ port ++ "' of '" ++ child ++ "' is " ++ problem
  | .portTypeMismatch _ child port expected found =>
    "port '" ++ port ++ "' of '" ++ child ++ "' expects " ++ expected ++ ", found " ++ found
  | .duplicateAppId _ appId => "AppID '" ++ appId ++ "' is already used in this scope"
  | .invalidAppId _ appId => "AppID '" ++ appId ++ "' is malformed"
  | .missingRole _ role => "bundle role '" ++ role ++ "' was not supplied"
  | .unexpectedRole _ role reason => "unexpected bundle role '" ++ role ++ "': " ++ reason
  | .duplicateRole _ role => "bundle role '" ++ role ++ "' was supplied twice"
  | .roleTypeMismatch _ what expected found =>
    what ++ " expects " ++ expected ++ ", found " ++ found
  | .channelRebound _ => "channel is already consumed"
  | .bundleRebound _ side => "bundle already has a " ++ side
  | .unservicedBundle _ side => "bundle has no " ++ side
  | .foreignHandle _ what => what ++ " handle belongs to another module"
  | .constantOutOfRange _ value ty =>
    "constant " ++ toString value.toNat ++ " does not fit in " ++ ty
  | .typeMismatch _ context expected found =>
    context ++ " expects " ++ expected ++ ", found " ++ found
  | .fieldMismatch _ ty field problem => "field '" ++ field ++ "' of " ++ ty ++ " is " ++ problem
  | .unknownService name => "unknown service '" ++ name ++ "'"
  | .unknownOperation service operation =>
    "service '" ++ service ++ "' has no operation '" ++ operation ++ "'"
  | .unresolvedService path service =>
    "no builtin instance of '" ++ service ++ "' encloses '" ++ path ++ "'"
  | .invalidServiceUse _ service reason =>
    "service '" ++ service ++ "' cannot be used this way: " ++ reason
  | .hostChannelsUnsupported backend _ service =>
    "backend '" ++ backend ++ "' does not support host channels (service '" ++ service ++ "')"
  | .unsupportedBuiltin backend _ tag =>
    "backend '" ++ backend ++ "' cannot realize builtin '" ++ tag ++ "'"
  | .outOfSequence operation stage expected =>
    "cannot " ++ operation ++ ": system is " ++ stage.text ++ ", expected " ++ expected.text
  | .previouslyFailed operation => "cannot " ++ operation ++ ": an earlier stage failed"
  | .outputLocked path => "output directory " ++ path ++ " is in use by another build"
  | .io path => "I/O error on " ++ path
  | .internal message => internalFault message

def code : BuildError → Code
  | .unknownModule .. => ⟨.error, 101⟩
  | .duplicate .. => ⟨.error, 102⟩
  | .recursiveInstantiation .. => ⟨.error, 103⟩
  | .unknownPort .. => ⟨.error, 104⟩
  | .portConnection .. => ⟨.error, 105⟩
  | .portTypeMismatch .. => ⟨.error, 106⟩
  | .duplicateAppId .. => ⟨.error, 107⟩
  | .invalidAppId .. => ⟨.error, 108⟩
  | .missingRole .. => ⟨.error, 110⟩
  | .unexpectedRole .. => ⟨.error, 111⟩
  | .duplicateRole .. => ⟨.error, 112⟩
  | .roleTypeMismatch .. => ⟨.error, 113⟩
  | .channelRebound .. => ⟨.error, 114⟩
  | .bundleRebound .. => ⟨.error, 115⟩
  | .unservicedBundle .. => ⟨.error, 116⟩
  | .foreignHandle .. => ⟨.error, 117⟩
  | .constantOutOfRange .. => ⟨.error, 118⟩
  | .typeMismatch .. => ⟨.error, 119⟩
  | .fieldMismatch .. => ⟨.error, 120⟩
  | .unknownService .. => ⟨.error, 130⟩
  | .unknownOperation .. => ⟨.error, 131⟩
  | .unresolvedService .. => ⟨.error, 132⟩
  | .invalidServiceUse .. => ⟨.error, 133⟩
  | .hostChannelsUnsupported .. => ⟨.backend, 201⟩
  | .unsupportedBuiltin .. => ⟨.backend, 202⟩
  | .outOfSequence .. => ⟨.pipeline, 301⟩
  | .outputLocked .. => ⟨.pipeline, 302⟩
  | .io .. => ⟨.pipeline, 303⟩
  | .previouslyFailed .. => ⟨.pipeline, 304⟩
  | .internal .. => ⟨.pipeline, 305⟩

def kind : BuildError → BuildErrorKind
  | .hostChannelsUnsupported .. | .unsupportedBuiltin .. => .capability
  | .outOfSequence .. | .previouslyFailed .. => .sequencing
  | .outputLocked .. | .io .. => .io
  | .internal .. => .internal
  | _ => .structural

def scope? : BuildError → Option String
  | .unknownPort module _ | .portConnection module .. | .portTypeMismatch module ..
  | .duplicateAppId module _ | .invalidAppId module _ | .missingRole module _
  | .unexpectedRole module .. | .duplicateRole module _ | .roleTypeMismatch module ..
  | .channelRebound module | .bundleRebound module _ | .unservicedBundle module _
  | .foreignHandle module _ | .constantOutOfRange module .. | .typeMismatch module ..
  | .fieldMismatch module .. | .invalidServiceUse module .. => some module
  | .unresolvedService path _ => some path
  | .hostChannelsUnsupported _ scope _ | .unsupportedBuiltin _ scope _ => some scope
  | .unknownModule .. | .duplicate .. | .recursiveInstantiation .. | .unknownService ..
  | .unknownOperation .. | .outOfSequence .. | .previouslyFailed .. | .outputLocked ..
  | .io .. | .internal .. => none

def annotate (error : BuildError) (diagnostic : Diagnostic) : Diagnostic :=
  match error with
  | .hostChannelsUnsupported .. =>
    diagnostic.withHelp
      "check ModuleBuilder::capabilities().host_channels before requesting host services"
  | .channelRebound .. => diagnostic.withNote "a channel is unwrapped or packed exactly once"
  | .outOfSequence .. =>
    diagnostic.withHelp "stages run in order: generate, compile, package"
  | .outputLocked path =>
    diagnostic.withHelp ("remove " ++ path ++ " if no other build is running")
  | _ => diagnostic

def toDiagnostic (error : BuildError) : Diagnostic :=
  error.annotate
    { severity := .error, code := error.code, message := error.message, scope := error.scope? }

end BuildError

end Elastic
