import WallSwitch.Agenda
import WallSwitch.Blueprint
import WallSwitch.Board.Wired
import WallSwitch.Checksum
import WallSwitch.Device.Boot
import WallSwitch.Proofs.Board.Levels
import WallSwitch.Proofs.Board.Orders
import WallSwitch.Proofs.ConfigText.Compiled
import WallSwitch.Proofs.ConfigText.Restoring
import WallSwitch.Proofs.Device.Answers
import WallSwitch.Proofs.Device.Attention
import WallSwitch.Proofs.Device.Erasing
import WallSwitch.Proofs.Device.ContactQueue
import WallSwitch.Proofs.Device.HeldAtStart
import WallSwitch.Proofs.Device.Locking
import WallSwitch.Proofs.Device.Presses
import WallSwitch.Proofs.Device.Pressing
import WallSwitch.Proofs.Device.Recalling
import WallSwitch.Proofs.Device.Restarting
import WallSwitch.Proofs.RelayBank.Completion
import WallSwitch.Proofs.RelayBank.Contact
import WallSwitch.Proofs.RelayBank.Moves
import WallSwitch.Proofs.RelayBank.Outputs
import WallSwitch.Proofs.RelayBank.PulseExclusion
import WallSwitch.Proofs.RelayBank.PulseLength
import WallSwitch.Proofs.Topology.Lookup
import WallSwitch.Proofs.Settings.Corruption
import WallSwitch.Proofs.PinWatcher.Runs
import WallSwitch.Proofs.PinWatcher.WatchMap
import WallSwitch.Proofs.PinWatcher.Masking
import WallSwitch.Proofs.Device.Reconfiguring
import WallSwitch.Proofs.Device.Happenings
import WallSwitch.Proofs.Settings.ItemMap
import WallSwitch.Proofs.PinWatcher.Convergence
import WallSwitch.Proofs.Device.StatusLed
import WallSwitch.Proofs.Device.FirstReadings
import WallSwitch.Proofs.ConfigText.Marks
import WallSwitch.Proofs.DeviceConfig.LedPlaces
import WallSwitch.Proofs.RelayBank.Bursts
import WallSwitch.Proofs.RelayBank.Independence
import WallSwitch.DeviceConfig.Filling
import WallSwitch.Proofs.ConfigText.Splitting
import WallSwitch.Proofs.DeviceConfig.Filling
import WallSwitch.Proofs.Device.StartChecks
import WallSwitch.Proofs.Device.BoundDevices
import WallSwitch.Proofs.Peripheral.LeadingNumber
import WallSwitch.Proofs.Peripheral.Grammar
import WallSwitch.Proofs.ResetTimer.Uses
import WallSwitch.Proofs.Device.Resets
