import AutomataCi.ReusableUnfolding
import AutomataCi.JobAttemptFencing
import AutomataCi.JournalRetries
import AutomataCi.PlacementPolicy
import AutomataCi.StatusPropagation
import AutomataCi.MatrixExpansion
import AutomataCi.ReplayRuns
import AutomataCi.EndpointRuns
import AutomataCi.CommandProgress
import AutomataCi.ExecutionRuns
import AutomataCi.OrphanCompletion
import AutomataCi.TrustReduction
import AutomataCi.CommandRoundTrip
import AutomataCi.StoppedCommands
import AutomataCi.LogicalFlattening
import AutomataCi.CronCompleteness
import AutomataCi.TemplateSegments
import AutomataCi.OutputCuts
import AutomataCi.NeedsSoundness
import AutomataCi.DependencyGraph
import AutomataCi.ExpansionDigest
import AutomataCi.LeaseDeadlines
import AutomataCi.ActionOutputs
import AutomataCi.StepAllocation
import AutomataCi.StepTimestamps
import AutomataCi.RerunSelection
import AutomataCi.ContextTrees
