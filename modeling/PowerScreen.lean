import PowerScreen.State.LastReport
import PowerScreen.ExcludeObject.Confirm
import PowerScreen.ExcludeObject.FullState
import PowerScreen.WebSocket.Replies
import PowerScreen.WebSocket.Interleaving
import PowerScreen.MainPanel.Header
import PowerScreen.MainPanel.MacroSync
import PowerScreen.Files.Built
import PowerScreen.Files.Refresh
import PowerScreen.Files.SortOrder
import PowerScreen.Files.Deletion
import PowerScreen.Files.Detail
import PowerScreen.Files.StartPrompt
import PowerScreen.BedMesh.Views
import PowerScreen.PrintPanel.Prepare
import PowerScreen.PrintStatus.Metadata
import PowerScreen.PrintStatus.Targets
import PowerScreen.PrintStatus.PauseResume
import PowerScreen.Prompt.PrintLock
import PowerScreen.Prompt.Liveness
import PowerScreen.Prompt.Terminal
import PowerScreen.Config.Usable
import PowerScreen.Config.Preserved
import PowerScreen.Install.RoundTrip
import PowerScreen.TmcTune.RoundTrip
import PowerScreen.Update.Atomicity
import PowerScreen.Wifi.Asked
import PowerScreen.Wifi.Selection
import PowerScreen.PidTune.Scripts
import PowerScreen.FineTune.Steps
import PowerScreen.SysInfo.Upgrade
import PowerScreen.SysInfo.UpdateRuns
import PowerScreen.SysInfo.ShownChannel
import PowerScreen.Update.Decision
import PowerScreen.Macros.Untouched
import PowerScreen.Moves.Modes
import PowerScreen.MainPanel.Rebuild
import PowerScreen.Wifi.SavedNetworks
import PowerScreen.Install.Edits
import PowerScreen.Display.Sleep
import PowerScreen.Console.Shortcuts
import PowerScreen.Console.History
import PowerScreen.Console.Log
import PowerScreen.Duration.Progress
import PowerScreen.Power.Truth
import PowerScreen.FilesExtra.Selection
import PowerScreen.Spoolman.Actions
import PowerScreen.SysInfo.DottedVersion
import PowerScreen.ExcludeObject.Boxes
import PowerScreen.MainPanel.Filament
import PowerScreen.WebSocket.Registries
import PowerScreen.ExcludeObject.Redraw
import PowerScreen.Display.Tick
import PowerScreen.Leds.Button
import PowerScreen.PrintStatus.HomeView
import PowerScreen.SysInfo.SavedSettings
import PowerScreen.ExcludeObject.Availability
import PowerScreen.Moves.Travel
import PowerScreen.InitPanel.Cards
import PowerScreen.PrinterTune.NozzleClean
import PowerScreen.Files.UsbLink
import PowerScreen.InputShaper.Panel
import PowerScreen.InputShaper.Saved
import PowerScreen.InputShaper.ShellCommand
