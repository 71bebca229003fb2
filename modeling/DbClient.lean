import DbClient.Assoc
import DbClient.Bind.Holder
import DbClient.Bind.Object
import DbClient.Bind.Transfer
import DbClient.Connection
import DbClient.Environment
import DbClient.Error
import DbClient.Handle.Release
import DbClient.Handle.Wrapper
import DbClient.Kind
import DbClient.Native.Bound
import DbClient.Native.Cursor
import DbClient.Native.Hook
import DbClient.Native.Library
import DbClient.Number.Binary
import DbClient.Number.Decimal
import DbClient.Number.Integer
import DbClient.Params
import DbClient.Proofs.Act
import DbClient.Proofs.Alike.Application
import DbClient.Proofs.Alike.Execution
import DbClient.Proofs.Alike.Library
import DbClient.Proofs.Alike.Operations
import DbClient.Proofs.Alike.Statements
import DbClient.Proofs.Alike.World
import DbClient.Proofs.Application.AttributionLaw
import DbClient.Proofs.Application.Basic
import DbClient.Proofs.Application.BindOutcomeLaw
import DbClient.Proofs.Application.BindSetLaw
import DbClient.Proofs.Application.BindingLaw
import DbClient.Proofs.Application.Bystanders
import DbClient.Proofs.Application.CapacityLaw
import DbClient.Proofs.Application.CascadeLaw
import DbClient.Proofs.Application.ChainWalks
import DbClient.Proofs.Application.CleanupLaw
import DbClient.Proofs.Application.CreationLaw
import DbClient.Proofs.Application.CurrentInputLaw
import DbClient.Proofs.Application.CursorLaw
import DbClient.Proofs.Application.EarlierRowsLaw
import DbClient.Proofs.Application.FailedExecutionLaw
import DbClient.Proofs.Application.FailingWalks
import DbClient.Proofs.Application.FailoverLaw
import DbClient.Proofs.Application.FetchLaw
import DbClient.Proofs.Application.ForestLaw
import DbClient.Proofs.Application.InputLaw
import DbClient.Proofs.Application.IsolationLaw
import DbClient.Proofs.Application.OutputLaw
import DbClient.Proofs.Application.OwnershipLaw
import DbClient.Proofs.Application.PrepareLaw
import DbClient.Proofs.Application.ReleasedLaw
import DbClient.Proofs.Application.RewrappingLaw
import DbClient.Proofs.Application.RoundTripLaw
import DbClient.Proofs.Application.Runs
import DbClient.Proofs.Application.SettingsLaw
import DbClient.Proofs.Application.TimeoutLaw
import DbClient.Proofs.Application.TransferLaw
import DbClient.Proofs.Application.TwinLaw
import DbClient.Proofs.Application.VersionGateLaw
import DbClient.Proofs.Application.Walks
import DbClient.Proofs.Assoc
import DbClient.Proofs.Bindings.Conservation
import DbClient.Proofs.Bindings.Data
import DbClient.Proofs.Bindings.Moves
import DbClient.Proofs.Bindings.Names
import DbClient.Proofs.Bindings.Tables
import DbClient.Proofs.Bindings.World
import DbClient.Proofs.Error.Gathering
import DbClient.Proofs.Forest.Cascade
import DbClient.Proofs.Forest.Effects
import DbClient.Proofs.Forest.Growth
import DbClient.Proofs.Forest.Invariant
import DbClient.Proofs.Forest.Release
import DbClient.Proofs.Forest.Retire
import DbClient.Proofs.Forest.Sound
import DbClient.Proofs.Forest.Stepwise
import DbClient.Proofs.Frame.Application
import DbClient.Proofs.Frame.Constructors
import DbClient.Proofs.Frame.Creation
import DbClient.Proofs.Frame.Genuine
import DbClient.Proofs.Frame.Leaf
import DbClient.Proofs.Frame.Operations
import DbClient.Proofs.Frame.Statements
import DbClient.Proofs.Frame.World
import DbClient.Proofs.Frame.Writing
import DbClient.Proofs.Moves.Basic
import DbClient.Proofs.Moves.Binding
import DbClient.Proofs.Moves.Creation
import DbClient.Proofs.Moves.Environments
import DbClient.Proofs.Moves.Handles
import DbClient.Proofs.Moves.Opening
import DbClient.Proofs.Moves.Statements
import DbClient.Proofs.Native
import DbClient.Proofs.Outcomes
import DbClient.Proofs.Ownership.Advance
import DbClient.Proofs.Ownership.Callbacks
import DbClient.Proofs.Ownership.Chains
import DbClient.Proofs.Ownership.Kinds
import DbClient.Proofs.Ownership.Library
import DbClient.Proofs.Ownership.Lineage
import DbClient.Proofs.Ownership.Moves
import DbClient.Proofs.Ownership.World
import DbClient.Proofs.Preparation
import DbClient.Proofs.Quiet.Library
import DbClient.Proofs.Quiet.Operations
import DbClient.Proofs.Quiet.World
import DbClient.Proofs.Scope.Attributes
import DbClient.Proofs.Scope.Basic
import DbClient.Proofs.Scope.Calls
import DbClient.Proofs.Scope.Exchange
import DbClient.Proofs.Scope.Handles
import DbClient.Proofs.Scope.InStep
import DbClient.Proofs.Scope.Invocation
import DbClient.Proofs.Scope.Isolation
import DbClient.Proofs.Scope.Locality
import DbClient.Proofs.Scope.Nodes
import DbClient.Proofs.Scope.Opening
import DbClient.Proofs.Scope.Operations
import DbClient.Proofs.Scope.Places
import DbClient.Proofs.Scope.Registry
import DbClient.Proofs.Scope.Settings
import DbClient.Proofs.Scope.Statements
import DbClient.Proofs.Scope.Telling
import DbClient.Proofs.Sync.Contention
import DbClient.Proofs.Sync.Schedule
import DbClient.Proofs.Sync.SerialLaw
import DbClient.Proofs.Text.Integers
import DbClient.Proofs.Text.Utf8
import DbClient.Proofs.Text.Words
import DbClient.Proofs.Transfer.Cells
import DbClient.Proofs.Transfer.Exchange
import DbClient.Proofs.Transfer.Execution
import DbClient.Proofs.Transfer.Faults
import DbClient.Proofs.Transfer.Guarded
import DbClient.Proofs.Transfer.Hooks
import DbClient.Proofs.Transfer.Moments
import DbClient.Proofs.Transfer.Native
import DbClient.Proofs.Transfer.Phases
import DbClient.Proofs.Transfer.Pull
import DbClient.Proofs.Transfer.Push
import DbClient.Proofs.Transfer.RoundTrip
import DbClient.Proofs.Transfer.Sizes
import DbClient.Proofs.Transfer.Steady
import DbClient.Proofs.Transfer.Twins
import DbClient.Proofs.Values.ConversionLaw
import DbClient.Proofs.Values.Numerals
import DbClient.Proofs.Values.Rounding
import DbClient.Proofs.Values.Truncation
import DbClient.Proofs.Version.Banner
import DbClient.Proofs.Version.Printing
import DbClient.Proofs.Version.Reading
import DbClient.Proofs.Walk.Aborted
import DbClient.Proofs.Walk.Chain
import DbClient.Proofs.Walk.Cursors
import DbClient.Proofs.Walk.Navigation
import DbClient.Proofs.Walk.Scripts
import DbClient.Proofs.Walk.Steps
import DbClient.Proofs.Walk.Visits
import DbClient.Resultset
import DbClient.Session.Basic
import DbClient.Session.Environments
import DbClient.Session.Handles
import DbClient.Session.Natives
import DbClient.Session.Reply
import DbClient.Session.RowScript
import DbClient.Session.Run
import DbClient.Session.Statements
import DbClient.Session.Variables
import DbClient.Session.Workbench
import DbClient.Statement
import DbClient.Sync
import DbClient.Text.Hex
import DbClient.Text.Numeral
import DbClient.Text.Utf8
import DbClient.Time.DateTime
import DbClient.Value.Basic
import DbClient.Value.Cell
import DbClient.Value.Convert
import DbClient.Value.Type
import DbClient.Version
import DbClient.World
