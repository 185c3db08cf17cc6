import UnitState.Main
import UnitState.Scenario.Run
import UnitState.Table.Lemmas
import UnitState.Proofs.AllOrNothing
import UnitState.Proofs.Coherence
import UnitState.Proofs.CommandCalls
import UnitState.Proofs.DeltaText
import UnitState.Proofs.DumpText
import UnitState.Proofs.DurableFiles
import UnitState.Proofs.EarlyEnds
import UnitState.Proofs.ExactHistory
import UnitState.Proofs.FailedOperations
import UnitState.Proofs.GrowingRevisions
import UnitState.Proofs.HistoryJoin
import UnitState.Proofs.HostFleet
import UnitState.Proofs.IsolatedReads
import UnitState.Proofs.LockConflicts
import UnitState.Proofs.NextHook
import UnitState.Proofs.OrderlyScenarios
import UnitState.Proofs.Reconstruction
import UnitState.Proofs.RepeatedHook
import UnitState.Proofs.SetThenGet
import UnitState.Proofs.SharedSlot
import UnitState.Proofs.StrippedKeys
import UnitState.Proofs.SwappedDiff
import UnitState.Proofs.ToldChanges
import UnitState.Proofs.Updates
