import HexConsole.Fault
import HexConsole.Font
import HexConsole.Instruction.Basic
import HexConsole.Instruction.Decode
import HexConsole.Instruction.Encode
import HexConsole.Instruction.Opcode
import HexConsole.Instruction.RoundTrip
import HexConsole.Keypad
import HexConsole.Launcher.Arguments
import HexConsole.Launcher.Catalog
import HexConsole.Launcher.Files
import HexConsole.Launcher.Help
import HexConsole.Launcher.Options
import HexConsole.Launcher.Start
import HexConsole.Layout
import HexConsole.Log
import HexConsole.Machine.Basic
import HexConsole.Machine.Execute
import HexConsole.Machine.Flow
import HexConsole.Machine.History
import HexConsole.Machine.Program
import HexConsole.Machine.Step
import HexConsole.Main
import HexConsole.Memory
import HexConsole.Noise
import HexConsole.Presentation
import HexConsole.Rates
import HexConsole.Recorder
import HexConsole.Schedule.Deeds
import HexConsole.Schedule.Reach
import HexConsole.Schedule.Session
import HexConsole.Schedule.Ticker
import HexConsole.Schedule.Timelines
import HexConsole.Screen.Basic
import HexConsole.Screen.Edit
import HexConsole.Screen.Sprite
import HexConsole.Text.Hex
import HexConsole.Window.Basic
import HexConsole.Window.Keymap
import HexConsole.Window.Texture
import HexConsole.Window.Tone
import HexConsole.Proofs.Steps
import HexConsole.Proofs.Failure
import HexConsole.Proofs.Halting
import HexConsole.Proofs.Reachability
import HexConsole.Proofs.Subroutines
import HexConsole.Proofs.Histories
import HexConsole.Proofs.Timers
import HexConsole.Proofs.Interleaving
import HexConsole.Proofs.Moves
import HexConsole.Proofs.Traces
import HexConsole.Proofs.Outcome
import HexConsole.Proofs.Shutdown
import HexConsole.Proofs.Beeps
import HexConsole.Proofs.FrameCount
import HexConsole.Proofs.Footprints
import HexConsole.Proofs.Poison
import HexConsole.Proofs.SoundTimer
import HexConsole.Launcher.AnyOrder
import HexConsole.Proofs.Keys
import HexConsole.Proofs.Headless
import HexConsole.Guarded.Basic
import HexConsole.Instruction.Raw
import HexConsole.Guarded.Machine
import HexConsole.Proofs.Guards
import HexConsole.Guarded.Program
import HexConsole.Guarded.Texture
import HexConsole.Proofs.Waiting
import HexConsole.Proofs.Loading
import HexConsole.Proofs.Pixels
import HexConsole.Proofs.Drawing
import HexConsole.Proofs.Redrawing
import HexConsole.Proofs.Arithmetic
import HexConsole.Proofs.ControlFlow
import HexConsole.Proofs.Transfers
import HexConsole.Proofs.Glyphs
import HexConsole.Proofs.Decoding
import HexConsole.Proofs.HeldKeys
import HexConsole.Proofs.Textures
import HexConsole.Proofs.Access
import HexConsole.Proofs.Scripts
import HexConsole.Proofs.Periods
import HexConsole.Proofs.Messages
import HexConsole.Proofs.Torus
