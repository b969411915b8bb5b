import Crablib.Network.IntrusiveHeap

/-! Timers of `network.hxx`: `Timer::once_at`, `is_set`, `cancel` and
`RunLoopLinks::process_timer`. Time points are nanoseconds of the steady clock.
`moved_fire_time` is what the user asked for last; `fire_time` is the heap key
and may lag behind it. -/
namespace Crablib

/-- The timer part of `RunLoopLinks`, with the two time points each timer holds. -/
structure RunLoopLinks (ι : Type) where
  activeTimers : IntrusiveHeap ι := {}
  now : Int := 0
  fireTime : ι → Int := fun _ => 0
  movedFireTime : ι → Int := fun _ => 0

/-- A call a handler, or any other user code, makes on some timer. -/
inductive TimerCall (ι : Type) where
  | onceAt (timer : ι) (timePoint : Int)
  | cancel (timer : ι)

/-- What `process_timer` did: whose handler it ran, if any, and the timeout it
leaves for the next wait. It returns true exactly when a handler ran. -/
structure Processed (ι : Type) where
  fired : Option ι
  timeoutMs : Int
  links : RunLoopLinks ι

namespace RunLoopLinks
variable {ι : Type} [DecidableEq ι]

def maxSleepMs : Int := 30 * 60 * 1000

def nanosPerMs : Int := 1000000

/-- `Timer::HeapPred`: the heap front is the timer with the least `fire_time`. -/
def heapPred (fireTime : ι → Int) (a b : ι) : Bool := decide (fireTime a > fireTime b)

def isSet (links : RunLoopLinks ι) (timer : ι) : Bool := links.activeTimers.heapIndex timer != 0

def onceAt (links : RunLoopLinks ι) (timer : ι) (timePoint : Int) : RunLoopLinks ι :=
  if links.isSet timer ∧ timePoint ≥ links.fireTime timer then
    { links with movedFireTime := Function.update links.movedFireTime timer timePoint }
  else
    let erased := (links.activeTimers.erase (heapPred links.fireTime) timer).2
    let fireTime := Function.update links.fireTime timer timePoint
    { links with
      movedFireTime := Function.update links.movedFireTime timer timePoint
      fireTime := fireTime
      activeTimers := (erased.insert (heapPred fireTime) timer).2 }

def cancel (links : RunLoopLinks ι) (timer : ι) : RunLoopLinks ι :=
  { links with activeTimers := (links.activeTimers.erase (heapPred links.fireTime) timer).2 }

def call (links : RunLoopLinks ι) : TimerCall ι → RunLoopLinks ι
  | .onceAt timer timePoint => links.onceAt timer timePoint
  | .cancel timer => links.cancel timer

/-- The loop of `process_timer`; `handler` says which calls each timer's
handler makes. It has no result when the passes run out, or when the heap it
looks at is empty, which the source excludes before the loop. -/
def processLoop (handler : ι → List (TimerCall ι)) (timeoutMs : Int) :
    Nat → RunLoopLinks ι → Option (Processed ι)
  | 0, _ => none
  | passes + 1, links =>
    match links.activeTimers.front with
    | none => none
    | some timer =>
      if links.fireTime timer ≤ links.now then
        let popped := { links with
          activeTimers := links.activeTimers.popFront (heapPred links.fireTime) }
        -- Timer was moved far enough without rescheduling
        if links.movedFireTime timer > links.now then
          let fireTime := Function.update links.fireTime timer (links.movedFireTime timer)
          processLoop handler timeoutMs passes { popped with
            fireTime := fireTime
            activeTimers := (popped.activeTimers.insert (heapPred fireTime) timer).2 }
        else some ⟨some timer, timeoutMs, (handler timer).foldl call popped⟩
      else if links.fireTime timer ≥ links.now + maxSleepMs * nanosPerMs then
        some ⟨none, timeoutMs, links⟩
      else some ⟨none, 1 + (links.fireTime timer - links.now) / nanosPerMs, links⟩

/-- A pass that continues moves one due timer out of the way, so one pass more
than there are timers is enough. -/
def processTimer (handler : ι → List (TimerCall ι)) (timeoutMs : Int) (links : RunLoopLinks ι) :
    Option (Processed ι) :=
  if links.activeTimers.empty then some ⟨none, timeoutMs, links⟩
  else processLoop handler timeoutMs links.activeTimers.size links

end RunLoopLinks
end Crablib
