import AccessHistory.Config.Json
import AccessHistory.Tracker
import AccessHistory.Proofs.EstimateBounds
import AccessHistory.Proofs.SlidingWindow
import AccessHistory.Proofs.TimeOrigin
import AccessHistory.Proofs.SketchHistories
import AccessHistory.Proofs.OneTick
import AccessHistory.Proofs.CheckedWords
import AccessHistory.Proofs.NarrowCells
import AccessHistory.Proofs.CheckedCounters
import AccessHistory.Proofs.CheckedRuns
import AccessHistory.Proofs.FilterHistories
import AccessHistory.Proofs.QueryShifts
import AccessHistory.Proofs.RepeatedRecords
import AccessHistory.Proofs.RowTotals
import AccessHistory.Proofs.RepeatedChecks
import AccessHistory.Proofs.RotationLog
import AccessHistory.Proofs.Construction
import AccessHistory.Proofs.NeverRotating
import AccessHistory.Proofs.NormalDoubles
import AccessHistory.Proofs.ValidSizing
import AccessHistory.Proofs.UnselectedSettings
import AccessHistory.Proofs.Footprints
import AccessHistory.Proofs.TakenTrackers
import AccessHistory.Proofs.ProbeSequences
import AccessHistory.Proofs.SizeCaps
import AccessHistory.Proofs.ConfigDocuments
import AccessHistory.Proofs.BitCalls
import AccessHistory.Proofs.BuilderCalls
