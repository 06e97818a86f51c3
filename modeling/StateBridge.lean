import StateBridge.Proofs.Module.Race
import StateBridge.Proofs.Module.Refinement
import StateBridge.Proofs.Table.Refinement
import StateBridge.Proofs.Table.Staleness
import StateBridge.Scenario.Lock
import StateBridge.Scenario.Registry
import StateBridge.Scenario.Session
import StateBridge.Scenario.Table
import StateBridge.Proofs.Table.Contents
import StateBridge.Proofs.Host.Storage
import StateBridge.Proofs.Host.Answers
import StateBridge.Proofs.Host.Runs
import StateBridge.Proofs.Host.Isolation
import StateBridge.Proofs.Host.Accounting
import StateBridge.Proofs.Host.Exit
import StateBridge.Proofs.Host.Fleet
import StateBridge.Proofs.Native.Requests
import StateBridge.Proofs.Native.Indicator
import StateBridge.Proofs.Bridge.Typing
import StateBridge.Proofs.Bridge.Order
import StateBridge.Proofs.Host.Numbering
import StateBridge.Proofs.Native.Aborts
import StateBridge.Proofs.Bridge.Interchange
import StateBridge.Proofs.Bridge.Fit
import StateBridge.Proofs.Module.Additions
import StateBridge.Proofs.Native.Attachment
import StateBridge.Proofs.Native.Chronicle
import StateBridge.Proofs.Table.Issues
import StateBridge.Proofs.Host.Refusals
import StateBridge.Proofs.Bridge.Upholding
import StateBridge.Proofs.Native.Scripts
import StateBridge.Proofs.Host.Registered
import StateBridge.Proofs.Handle.Integers
import StateBridge.Proofs.Table.Growth
import StateBridge.Proofs.Host.Noting
import StateBridge.Proofs.Module.Lookups
import StateBridge.Proofs.Host.Switch
import StateBridge.Proofs.Handle.Encoding
import StateBridge.Proofs.Table.Peak
import StateBridge.Proofs.Handle.Description
import StateBridge.Proofs.Bridge.Tallies
import StateBridge.Proofs.Native.Crossings
