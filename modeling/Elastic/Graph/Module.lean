import Elastic.Arena
import Elastic.Names
import Elastic.AppId
import Elastic.Metadata
import Elastic.Ty.Pool

namespace Elastic

/-! A module of a design: expressions, ready/valid channels, bundles of channels, service instances,
builtins and child modules. Its parts refer to one another by number. -/

abbrev ExprId := Nat
abbrev ChannelId := Nat
abbrev BundleId := Nat
abbrev ServiceInstanceId := Nat
abbrev ModuleId := Nat
abbrev InstanceId := Nat

inductive Expr
  | const (value : UInt64)
  | port (index : Nat)
  | channelData (channel : ChannelId)
  | channelValid (channel : ChannelId)
  | channelReady (channel : ChannelId)
  | struct (fields : List ExprId)
  | field (base : ExprId) (index : Nat)
  | and (first second : ExprId)
  | or (first second : ExprId)
  | not (operand : ExprId)
  | builtinResult (builtin index : Nat)
deriving DecidableEq, Repr, Inhabited

structure Port where
  name : Ident
  ty : TyId
deriving DecidableEq, Repr, Inhabited

inductive Producer
  | wrapped (data valid : ExprId)
  | bundle (bundle : BundleId) (role : Nat)
deriving DecidableEq, Repr, Inhabited

inductive Consumer
  | unbound
  | unwrapped (ready : ExprId)
  | bundle (bundle : BundleId) (role : Nat)
deriving DecidableEq, Repr, Inhabited

structure Channel where
  payload : TyId
  producer : Producer
  consumer : Consumer
deriving DecidableEq, Repr, Inhabited

/-- What stands at one side of a bundle: nothing, the module itself, or a service. -/
inductive BundleEnd
  | unbound
  | local
  | service (serviceInstance : ServiceInstanceId)
deriving DecidableEq, Repr, Inhabited

def BundleEnd.isBound : BundleEnd → Bool
  | .unbound => false
  | .local | .service _ => true

structure RoleSlot where
  name : Ident
  flow : Flow
  payload : TyId
  client : Option ChannelId
  server : Option ChannelId
deriving DecidableEq, Repr, Inhabited

structure Bundle where
  ty : TyId
  roles : List RoleSlot
  client : BundleEnd
  server : BundleEnd
deriving DecidableEq, Repr, Inhabited

namespace Bundle

def roleIndex? (bundle : Bundle) (name : Ident) : Option Nat :=
  bundle.roles.findIdx? (·.name = name)

def isServiced (bundle : Bundle) : Bool :=
  bundle.client.isBound && bundle.server.isBound

end Bundle

inductive ServiceSide
  | server
  | client
deriving DecidableEq, Repr, Inhabited

def ServiceSide.text : ServiceSide → String
  | .server => "server"
  | .client => "client"

structure ServiceInstance where
  appId : AppId
  service : Nat
  operation : Nat
  bundle : BundleId
  side : ServiceSide
deriving DecidableEq, Repr, Inhabited

structure Builtin where
  appId : AppId
  service : Nat
  tag : Ident
  results : List TyId
  inputs : List ExprId
deriving DecidableEq, Repr, Inhabited

structure Child where
  appId : AppId
  module : ModuleId
  connections : List ExprId
deriving DecidableEq, Repr, Inhabited

structure Module where
  id : ModuleId
  name : Ident
  ports : List Port
  metadata : Option Metadata
  exprs : Arena Expr := {}
  channels : Arena Channel := {}
  bundles : Arena Bundle := {}
  services : Arena ServiceInstance := {}
  builtins : List Builtin := []
  children : List Child := []
deriving Inhabited

namespace Module

def portIndex? (module : Module) (name : Ident) : Option Nat :=
  module.ports.findIdx? (·.name = name)

def appIds (module : Module) : List AppId :=
  module.children.map (·.appId) ++ module.services.toList.map (·.appId) ++
    module.builtins.map (·.appId)

def danglingChannels (module : Module) : List (ChannelId × Channel) :=
  module.channels.entries.filter fun (_, channel) => channel.consumer = .unbound

def isOpen (module : Module) (channel : ChannelId) : Bool :=
  match module.channels.get? channel with
  | some held => held.consumer = .unbound
  | none => false

def consume (module : Module) (channel : ChannelId) (consumer : Consumer) : Module :=
  match module.channels.get? channel with
  | some held =>
    { module with channels := module.channels.set channel { held with consumer := consumer } }
  | none => module

end Module

end Elastic
