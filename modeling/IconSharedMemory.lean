import IconSharedMemory.ActionRequests
import IconSharedMemory.ActivationGate
import IconSharedMemory.AsyncBuffer
import IconSharedMemory.AtomicObjects
import IconSharedMemory.BoundedFifo
import IconSharedMemory.Brackets
import IconSharedMemory.ByteLayout
import IconSharedMemory.CallbackHandler
import IconSharedMemory.CharArrays
import IconSharedMemory.CheckedCopy
import IconSharedMemory.ClockTimestamps
import IconSharedMemory.CompositeCreation
import IconSharedMemory.CreationRules
import IconSharedMemory.DescriptorOwnership
import IconSharedMemory.DomainSocket
import IconSharedMemory.DomainSocketReceive
import IconSharedMemory.DomainSocketShortSends
import IconSharedMemory.DomainSocketTransfer
import IconSharedMemory.FixedString
import IconSharedMemory.Futex
import IconSharedMemory.FutexCalls
import IconSharedMemory.FutexCode
import IconSharedMemory.HandlerShutdown
import IconSharedMemory.HardwareInterfaces
import IconSharedMemory.HardwareModuleRuntime
import IconSharedMemory.HardwareModuleState
import IconSharedMemory.Holdings
import IconSharedMemory.HookFailure
import IconSharedMemory.JointLimitsUtils
import IconSharedMemory.LockableFutex
import IconSharedMemory.Lockstep
import IconSharedMemory.LockstepCancel
import IconSharedMemory.LockstepCode
import IconSharedMemory.LockstepReset
import IconSharedMemory.LockstepSafety
import IconSharedMemory.LockstepTokens
import IconSharedMemory.ManagerMoves
import IconSharedMemory.MemorySegment
import IconSharedMemory.NameTables
import IconSharedMemory.Promise
import IconSharedMemory.PromiseAttach
import IconSharedMemory.PromiseCalls
import IconSharedMemory.PromiseCancel
import IconSharedMemory.PromiseCode
import IconSharedMemory.PromiseDestruction
import IconSharedMemory.PromiseHandles
import IconSharedMemory.PromiseLifetime
import IconSharedMemory.PromiseLocks
import IconSharedMemory.PromiseQueue
import IconSharedMemory.PromiseTransfer
import IconSharedMemory.PromiseUnlock
import IconSharedMemory.PromiseWait
import IconSharedMemory.PromiseWakeups
import IconSharedMemory.QueueBuffer
import IconSharedMemory.QueueRefinement
import IconSharedMemory.RealtimeClock
import IconSharedMemory.RemoteTrigger
import IconSharedMemory.RequestCustody
import IconSharedMemory.RequestPrecedence
import IconSharedMemory.RequestReaders
import IconSharedMemory.Runs
import IconSharedMemory.RuntimeCalls
import IconSharedMemory.RuntimeConnection
import IconSharedMemory.RuntimeStop
import IconSharedMemory.SegmentInfoUtils
import IconSharedMemory.SegmentSetup
import IconSharedMemory.SharedMemoryManager
import IconSharedMemory.SocketLock
import IconSharedMemory.StatePublication
import IconSharedMemory.StrictHandles
import IconSharedMemory.TransitionHooks
import IconSharedMemory.TriggerCode
import IconSharedMemory.TriggerExclusion
import IconSharedMemory.TriggerRounds
import IconSharedMemory.WaitDeadlines
