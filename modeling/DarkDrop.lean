import DarkDrop.Main
import DarkDrop.Link.Recorder
import DarkDrop.Play.Script
import DarkDrop.Terminal.Sitting
import DarkDrop.Proofs.Link.Intention
import DarkDrop.Proofs.Play.RequestLedger
import DarkDrop.Proofs.Play.Moves
import DarkDrop.Proofs.Play.History
import DarkDrop.Proofs.Play.LinkStatus
import DarkDrop.Proofs.Play.Logins
import DarkDrop.Proofs.Play.LoginScreen
import DarkDrop.Proofs.Play.QuickJoin
import DarkDrop.Proofs.Play.Display
import DarkDrop.Proofs.Play.BadFrames
import DarkDrop.Proofs.Play.Resync
import DarkDrop.Proofs.Play.Remembered
import DarkDrop.Proofs.Play.OnlineAs
import DarkDrop.Proofs.Link.UserUrl
import DarkDrop.Proofs.Wire.TwoReaders
import DarkDrop.Proofs.Json.Skippable
import DarkDrop.Proofs.Json.Shape
import DarkDrop.Proofs.Wire.ServerFrames
import DarkDrop.Proofs.Wire.Verdicts
import DarkDrop.Proofs.Json.Rearranged
import DarkDrop.Proofs.Link.Reconnect
import DarkDrop.Proofs.Play.LastWord
import DarkDrop.Proofs.Json.Blind
import DarkDrop.Proofs.Wire.Layouts
import DarkDrop.Proofs.Play.PendingRoom
import DarkDrop.Proofs.Play.LineGrammar
import DarkDrop.Proofs.Terminal.Zipper
import DarkDrop.Proofs.Terminal.BoardPicture
import DarkDrop.Proofs.Play.RoomLink
import DarkDrop.Proofs.Terminal.Keystrokes
import DarkDrop.Proofs.Text.PlainCells
import DarkDrop.Proofs.Terminal.ScreenLayout
import DarkDrop.Proofs.Json.Differing
import DarkDrop.Proofs.Wire.Absence
import DarkDrop.Proofs.Wire.AbsentFrames
import DarkDrop.Proofs.Json.Parsed
import DarkDrop.Proofs.Terminal.Cursor
import DarkDrop.Proofs.Storage.Restart
import DarkDrop.Proofs.Play.CleanEnd
