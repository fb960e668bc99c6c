import TaskKernel.Scenario.Histories
import TaskKernel.SysTick
import TaskKernel.Text.Log
import TaskKernel.Proofs.Heap.Session
import TaskKernel.Proofs.Processor.Preemption
import TaskKernel.Proofs.Queue.Replies
import TaskKernel.Proofs.Schedule.Urgency
import TaskKernel.Proofs.Mutex.Exclusion
import TaskKernel.Proofs.Event.Delivery
import TaskKernel.Proofs.Schedule.Enrolment
import TaskKernel.Proofs.Schedule.Isolation
import TaskKernel.Proofs.Mutex.Serial
import TaskKernel.Proofs.Queue.Timeouts
import TaskKernel.Proofs.Wait.Agreement
import TaskKernel.Proofs.Wait.Expiry
import TaskKernel.Proofs.Wait.Traceless
import TaskKernel.Proofs.Schedule.Picks
import TaskKernel.Proofs.Heap.Freeing
import TaskKernel.Proofs.Processor.Handover
import TaskKernel.Proofs.Heap.Checking
import TaskKernel.Proofs.Heap.Relinking
import TaskKernel.Proofs.Schedule.Waking
import TaskKernel.Proofs.Schedule.Sharing
import TaskKernel.Proofs.Schedule.Slices
import TaskKernel.Proofs.Queue.Creation
import TaskKernel.Proofs.Processor.Advancing
import TaskKernel.Proofs.Processor.Launching
import TaskKernel.Proofs.Processor.Lines
import TaskKernel.Proofs.Queue.Bounds
import TaskKernel.Proofs.Wait.Durations
