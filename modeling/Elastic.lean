import Elastic.AppId
import Elastic.Arbitration
import Elastic.Arena
import Elastic.Backend
import Elastic.Build.Builder
import Elastic.Build.Construct
import Elastic.Build.Elaborate
import Elastic.Build.Error
import Elastic.Build.Generate
import Elastic.Build.Library
import Elastic.Build.Recipe
import Elastic.Build.Stage
import Elastic.Command.Arguments
import Elastic.Command.Build
import Elastic.Command.Console
import Elastic.Command.Run
import Elastic.Command.Simulate
import Elastic.Command.Stimulus
import Elastic.Compile.Artifact
import Elastic.Compile.Design
import Elastic.Compile.Manifest
import Elastic.Compile.ServiceMap
import Elastic.Compile.Validate
import Elastic.Designs
import Elastic.Diagnostic.Basic
import Elastic.Diagnostic.Log
import Elastic.Diagnostic.Render
import Elastic.Digest.Content
import Elastic.Digest.Xxh3
import Elastic.Disk.Basic
import Elastic.Disk.Path
import Elastic.Graph.Basic
import Elastic.Graph.Json
import Elastic.Graph.Module
import Elastic.HardwareSystem
import Elastic.Json.Decode
import Elastic.Json.Printer
import Elastic.Json.Reader
import Elastic.Json.Value
import Elastic.Main
import Elastic.Metadata
import Elastic.Names
import Elastic.Package.Commit
import Elastic.Package.Index
import Elastic.Package.Volume
import Elastic.Package.Write
import Elastic.Project.Config
import Elastic.Project.Target
import Elastic.Proofs.Build.Action
import Elastic.Proofs.Build.Addresses
import Elastic.Proofs.Build.Calls
import Elastic.Proofs.Build.Catalogue
import Elastic.Proofs.Build.Checks
import Elastic.Proofs.Build.GenerationSteps
import Elastic.Proofs.Build.Ownership
import Elastic.Proofs.Build.Exchange
import Elastic.Proofs.Build.Extension
import Elastic.Proofs.Build.Generated
import Elastic.Proofs.Build.Growth
import Elastic.Proofs.Build.GenerationState
import Elastic.Proofs.Build.Handles
import Elastic.Proofs.Build.Inference
import Elastic.Proofs.Build.Inferred
import Elastic.Proofs.Build.OperationInvariants
import Elastic.Proofs.Build.Links
import Elastic.Proofs.Build.Matching
import Elastic.Proofs.Build.Packing
import Elastic.Proofs.Build.Provision
import Elastic.Proofs.Build.Recursion
import Elastic.Proofs.Build.Refusals
import Elastic.Proofs.Build.Renaming
import Elastic.Proofs.Build.Reviews
import Elastic.Proofs.Build.Roles
import Elastic.Proofs.Build.Screening
import Elastic.Proofs.Build.Slots
import Elastic.Proofs.Build.Soundness
import Elastic.Proofs.Build.Spelling
import Elastic.Proofs.Build.Steps
import Elastic.Proofs.Build.Tables
import Elastic.Proofs.Build.HandleRuns
import Elastic.Proofs.Build.Termination
import Elastic.Proofs.Build.Tree
import Elastic.Proofs.Build.Typing
import Elastic.Proofs.Build.Unfolding
import Elastic.Proofs.Build.Invariants
import Elastic.Proofs.Build.Values
import Elastic.Proofs.Build.Vetting
import Elastic.Proofs.Build.Visits
import Elastic.Proofs.Build.Wiring
import Elastic.Proofs.Command.Pokes
import Elastic.Proofs.Compile.Assignment
import Elastic.Proofs.Compile.EndpointTable
import Elastic.Proofs.Compile.Kernel
import Elastic.Proofs.Compile.Outcome
import Elastic.Proofs.Compile.Resolution
import Elastic.Proofs.Compile.Texts
import Elastic.Proofs.Digest.Parts
import Elastic.Proofs.Disk.Paths
import Elastic.Proofs.Disk.Places
import Elastic.Proofs.Disk.Spellings
import Elastic.Proofs.Disk.Walks
import Elastic.Proofs.Graph.Codec
import Elastic.Proofs.Graph.Distinctness
import Elastic.Proofs.Json.Distinctness
import Elastic.Proofs.Json.Indentation
import Elastic.Proofs.Json.Lexing
import Elastic.Proofs.Json.Lookup
import Elastic.Proofs.Json.Records
import Elastic.Proofs.Json.RoundTrip
import Elastic.Proofs.Json.Sorting
import Elastic.Proofs.Package.Bounds
import Elastic.Proofs.Package.Contest
import Elastic.Proofs.Package.Delivery
import Elastic.Proofs.Package.Journal
import Elastic.Proofs.Package.Moving
import Elastic.Proofs.Package.Preparation
import Elastic.Proofs.Package.Regions
import Elastic.Proofs.Package.Replacement
import Elastic.Proofs.Package.Shifts
import Elastic.Proofs.Package.Staging
import Elastic.Proofs.Package.Tiers
import Elastic.Proofs.Project.Targets
import Elastic.Proofs.Sim.Addressing
import Elastic.Proofs.Sim.Calls
import Elastic.Proofs.Sim.Conformity
import Elastic.Proofs.Sim.Connection
import Elastic.Proofs.Sim.Contention
import Elastic.Proofs.Sim.Contracts
import Elastic.Proofs.Sim.CopiedWord
import Elastic.Proofs.Sim.Copying
import Elastic.Proofs.Sim.Cycle
import Elastic.Proofs.Sim.Denotation
import Elastic.Proofs.Sim.Effects
import Elastic.Proofs.Sim.Equations
import Elastic.Proofs.Sim.Evaluation
import Elastic.Proofs.Sim.Fairness
import Elastic.Proofs.Sim.Handshake
import Elastic.Proofs.Sim.HostRoles
import Elastic.Proofs.Sim.HostTable
import Elastic.Proofs.Sim.HostTraffic
import Elastic.Proofs.Sim.Layout
import Elastic.Proofs.Sim.Lookups
import Elastic.Proofs.Sim.LostWrites
import Elastic.Proofs.Sim.Monitoring
import Elastic.Proofs.Sim.Ordering
import Elastic.Proofs.Sim.Parsing
import Elastic.Proofs.Sim.Preservation
import Elastic.Proofs.Sim.Recovery
import Elastic.Proofs.Sim.Reordering
import Elastic.Proofs.Sim.Responses
import Elastic.Proofs.Sim.Routines
import Elastic.Proofs.Sim.Runs
import Elastic.Proofs.Sim.Safety
import Elastic.Proofs.Sim.Clients
import Elastic.Proofs.Sim.Simultaneity
import Elastic.Proofs.Sim.Stability
import Elastic.Proofs.Sim.Termination
import Elastic.Proofs.Sim.Transfers
import Elastic.Proofs.Sim.TypeSoundness
import Elastic.Proofs.Sim.Words
import Elastic.Proofs.System.Progress
import Elastic.Proofs.System.Sharing
import Elastic.Proofs.System.Stages
import Elastic.Proofs.Text.Numerals
import Elastic.Proofs.Text.Tags
import Elastic.Proofs.Ty.Codec
import Elastic.Proofs.Ty.Flatness
import Elastic.Proofs.Ty.Width
import Elastic.Service
import Elastic.Sim.Error
import Elastic.Sim.Monitor
import Elastic.Sim.Netlist
import Elastic.Sim.Settle
import Elastic.Sim.Signal
import Elastic.Sim.Simulator
import Elastic.Sim.State
import Elastic.Sim.Value
import Elastic.Text.Blank
import Elastic.Text.Decimal
import Elastic.Text.Markup
import Elastic.Text.Numeral
import Elastic.Toml.Quoted
import Elastic.Toml.Reader
import Elastic.Toml.Scalar
import Elastic.Toml.Value
import Elastic.Ty.Basic
import Elastic.Ty.Json
import Elastic.Ty.Pool
