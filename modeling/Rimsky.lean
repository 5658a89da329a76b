import Rimsky.Runtime.TwoRounds
import Rimsky.Runtime.MessageFrames
import Rimsky.Runtime.HeldDeferral
import Rimsky.Runtime.IdempotentModes
import Rimsky.Runtime.CoHolders
import Rimsky.Runtime.SettledRuns
import Rimsky.Runtime.Poison
import Rimsky.Runtime.SiblingCancel
import Rimsky.Runtime.DispatchBags
import Rimsky.Runtime.SequencedRounds
import Rimsky.Runtime.CleanSlate
import Rimsky.Runtime.FanOutVerdicts
import Rimsky.Runtime.LockOrder
import Rimsky.Runtime.Resume
import Rimsky.Graph.Reachability
import Rimsky.Graph.SubscriptionTrie
import Rimsky.Persistence.SpillOrphans
import Rimsky.Runtime.VerbOutbox
import Rimsky.Runtime.PureCascade
import Rimsky.Producers.PostgresPicks
import Rimsky.Producers.PostgresStaging
import Rimsky.Producers.FilesystemRetries
import Rimsky.Producers.LedgerPages
import Rimsky.Sensors.Cron
import Rimsky.Graph.HoldingKeys
import Rimsky.Graph.HardDepCycles
