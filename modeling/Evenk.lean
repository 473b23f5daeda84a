import Evenk.TransitionSystem
import Evenk.Futex
import Evenk.FixedWidth
import Evenk.Fallible
import Evenk.QueueSpec
import Evenk.BoundedQueueToken
import Evenk.BoundedQueueRing
import Evenk.BoundedQueueSequential
import Evenk.SynchQueue
import Evenk.MoveOnlyTask
import Evenk.MoveOnlyTaskOwnership
import Evenk.ThreadPool
import Evenk.FutexLock
import Evenk.FutexLockExclusion
import Evenk.FutexCondVar
import Evenk.PackedCounter
import Evenk.SharedTicketLock
import Evenk.SharedTicketLockExclusion
import Evenk.SharedTicketLockRace
import Evenk.FutexSlot
import Evenk.FutexSlotWakeup
import Evenk.BoundedQueueLaps
import Evenk.Backoff
import Evenk.BackoffCeiling
import Evenk.TicketLock
import Evenk.TicketLockRace
import Evenk.TicketLockExclusion
import Evenk.BoundedQueueThreads
import Evenk.BoundedQueueSlots
import Evenk.BoundedQueueInvariant
import Evenk.BoundedQueueSteps
import Evenk.BoundedQueueDelivery
import Evenk.BoundedQueueRefinement
import Evenk.SynchQueueThreads
import Evenk.SpinLock
import Evenk.QueueIterators
import Evenk.ThreadAffinity
import Evenk.TrivialTask
