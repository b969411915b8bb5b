import Crablib.Library.Run
import Crablib.Network.IntrusiveList

/-! `Watcher` of `network.hxx` and the part of the loop that serves it. Any thread
may call a watcher: it is put into `fired_objects` under the loop's mutex and the loop is
woken through an eventfd. On the loop's thread the handler of the eventfd reads it and
moves what was fired to the queue of handlers. Each section under the mutex, each read
and each write of the eventfd is one step of a system of threads. -/
namespace Crablib

/-- What the queue of handlers holds: the handler of the eventfd and those of watchers. -/
inductive Callable (ω : Type) where
  | wake
  | watcher (w : ω)
  deriving DecidableEq, Repr

/-- The two lists of `RunLoopLinks` that watchers are in. -/
structure WatcherLinks (ω : Type) where
  firedObjects : List ω := []
  triggeredCallables : List (Callable ω) := []
  deriving DecidableEq, Repr

namespace WatcherLinks

variable {ω : Type} [DecidableEq ω]

def callWatcher (l : WatcherLinks ω) (w : ω) : WatcherLinks ω :=
  { l with firedObjects := IntrusiveList.pushBack l.firedObjects w }

def cancelCalledWatcher (l : WatcherLinks ω) (w : ω) : WatcherLinks ω :=
  { l with firedObjects := IntrusiveList.unlink l.firedObjects w }

def triggerCalledWatchers (l : WatcherLinks ω) : WatcherLinks ω where
  firedObjects := []
  triggeredCallables := l.firedObjects.foldl (fun queue w =>
    IntrusiveList.pushBack queue (.watcher w)) l.triggeredCallables

/-- `cancel_callable` of a watcher's handler. -/
def cancelCallable (l : WatcherLinks ω) (w : ω) : WatcherLinks ω :=
  { l with triggeredCallables := IntrusiveList.unlink l.triggeredCallables (.watcher w) }

/-- `Watcher::cancel`, where no other thread can come between its two steps. -/
def cancel (l : WatcherLinks ω) (w : ω) : WatcherLinks ω := (l.cancelCallable w).cancelCalledWatcher w

end WatcherLinks

/-- What the loop's thread is in the middle of. -/
inductive Running (ω : Type) where
  | free
  /-- The handler of the eventfd, before its read. -/
  | read
  /-- The handler of the eventfd, between its read and `trigger_called_watchers`. -/
  | trigger
  /-- `Watcher::cancel`, between its two steps. -/
  | cancelling (w : ω)
  deriving DecidableEq, Repr

/-- The loop and the threads that call its watchers. `callers` says which threads are
between `call_watcher` and `wakeup`. The eventfd is registered as edge-triggered:
`unreported` says that it was written since `epoll_wait` reported it last. -/
structure WatcherSystem (τ ω : Type) where
  links : WatcherLinks ω := {}
  wakeValue : Nat := 0
  unreported : Bool := false
  running : Running ω := .free
  callers : τ → Option ω := fun _ => none

namespace WatcherSystem

variable {τ ω : Type} [DecidableEq τ] [DecidableEq ω]

/-- The largest value of an eventfd. -/
def maxWakeValue : Nat := 2 ^ 64 - 2

/-- `eventfd_write(wake_fd, 1)`, which fails and changes nothing when the counter is full. -/
def wakeup (s : WatcherSystem τ ω) : WatcherSystem τ ω :=
  if s.wakeValue < maxWakeValue then { s with wakeValue := s.wakeValue + 1, unreported := true } else s

/-- `epoll_wait`, as far as the eventfd is concerned. -/
def epollWait (s : WatcherSystem τ ω) : WatcherSystem τ ω :=
  if s.unreported && s.wakeValue != 0 then
    { s with
      unreported := false
      links.triggeredCallables := IntrusiveList.pushBack s.links.triggeredCallables .wake }
  else { s with unreported := false }

/-- The handler at the front is unlinked and started. What the handler of a watcher
does are further steps. -/
def startFront (s : WatcherSystem τ ω) : WatcherSystem τ ω :=
  match s.links.triggeredCallables with
  | [] => s
  | .wake :: rest => { s with links.triggeredCallables := rest, running := .read }
  | .watcher _ :: rest => { s with links.triggeredCallables := rest }

/-- The steps of the system. -/
inductive Act (τ ω : Type) where
  /-- `Watcher::call` on any thread. -/
  | callWatcher (t : τ) (w : ω)
  | wakeup (t : τ)
  /-- `RunLoop::cancel` on any thread wakes the loop, too. -/
  | cancelLoop
  | epollWait
  | startFront
  /-- The handler of the eventfd. -/
  | eventfdRead
  | triggerCalledWatchers
  /-- `Watcher::cancel`, which only the loop's thread may call. -/
  | cancelCallable (w : ω)
  | cancelCalledWatcher
  deriving DecidableEq, Repr

/-- The loop's thread takes its own steps in order, and so does every caller. -/
def Enabled (s : WatcherSystem τ ω) : Act τ ω → Prop
  | .callWatcher t _ => s.callers t = none
  | .wakeup t => s.callers t ≠ none
  | .cancelLoop => True
  | .epollWait => s.running = .free
  | .startFront => s.running = .free
  | .eventfdRead => s.running = .read
  | .triggerCalledWatchers => s.running = .trigger
  | .cancelCallable _ => s.running = .free
  | .cancelCalledWatcher => ∃ w, s.running = .cancelling w

def setCaller (s : WatcherSystem τ ω) (t : τ) (call : Option ω) : WatcherSystem τ ω :=
  { s with callers := fun other => if other = t then call else s.callers other }

def next (s : WatcherSystem τ ω) : Act τ ω → WatcherSystem τ ω
  | .callWatcher t w => { s with links := s.links.callWatcher w }.setCaller t (some w)
  | .wakeup t => s.wakeup.setCaller t none
  | .cancelLoop => s.wakeup
  | .epollWait => s.epollWait
  | .startFront => s.startFront
  | .eventfdRead => { s with wakeValue := 0, running := .trigger }
  | .triggerCalledWatchers => { s with links := s.links.triggerCalledWatchers, running := .free }
  | .cancelCallable w => { s with links := s.links.cancelCallable w, running := .cancelling w }
  | .cancelCalledWatcher =>
    match s.running with
    | .cancelling w => { s with links := s.links.cancelCalledWatcher w, running := .free }
    | _ => s

/-- The handler that a step starts. -/
def started (s : WatcherSystem τ ω) : Act τ ω → Option (Callable ω)
  | .startFront => s.links.triggeredCallables.head?
  | _ => none

/-- The system after a run. -/
def after (s : WatcherSystem τ ω) (run : List (Act τ ω)) : WatcherSystem τ ω := Run.after next s run

/-- Some step of a run starts the handler of a watcher. -/
def Starts (s : WatcherSystem τ ω) (w : ω) (run : List (Act τ ω)) : Prop :=
  some (.watcher w) ∈ Run.seen next started s run

/-- An interleaving of the steps of the loop's thread and of the callers. -/
def Interleaving (s : WatcherSystem τ ω) (run : List (Act τ ω)) : Prop := Run.Meets next Enabled s run

end WatcherSystem
end Crablib
