import HookRelay.Main
import HookRelay.Proofs.Arrival
import HookRelay.Proofs.Delivery
import HookRelay.Proofs.ResponseFrame
import HookRelay.Proofs.Relaying
import HookRelay.Proofs.Splicing
import HookRelay.Proofs.AmbientHook
import HookRelay.Proofs.RequestFrame
import HookRelay.Proofs.FileContent
import HookRelay.Proofs.ReminderSpacing
import HookRelay.Proofs.ReadLoop
import HookRelay.Proofs.SendThenReceive
import HookRelay.Proofs.PlainBytes
import HookRelay.Proofs.JsonScalar
import HookRelay.Proofs.JsonObject
import HookRelay.Proofs.SplicedObject
import HookRelay.Proofs.FailingOutput
import HookRelay.Proofs.JsonText
import HookRelay.Proofs.Directories
import HookRelay.Proofs.JournalLine
import HookRelay.Proofs.JournalFile
import HookRelay.Proofs.GrownTree
import HookRelay.Proofs.UnseenLog
import HookRelay.Proofs.CheckedCells
import HookRelay.Proofs.CheckedWire
import HookRelay.Proofs.CheckedProgram
import HookRelay.Proofs.CapturedInput
import HookRelay.Proofs.SplicedRequest
import HookRelay.Proofs.WordPlaces
import HookRelay.Proofs.BuildReports
import HookRelay.Proofs.MarkerReading
import HookRelay.Proofs.GateDecision
import HookRelay.Proofs.RelayFailures
import HookRelay.Proofs.PathsOfHome
import HookRelay.Proofs.ReadCount
import HookRelay.Proofs.SettingNumbers
import HookRelay.Proofs.HookNotes
import HookRelay.Proofs.MarkerWriting
import HookRelay.Proofs.PrintedLast
