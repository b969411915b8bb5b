import Crablib.Network.Watcher

/-! `DNSResolver` and `DNSWorker` of `network.hxx`. Resolvers on any loops hand their
requests to one worker thread, which resolves outside its mutex and calls the resolver's
watcher when it has the addresses. Each section under `dns_mutex` is one step of a system
of threads; `sync_resolve` is any function of its arguments. -/
namespace Crablib

/-- The arguments of `resolve`. -/
structure DnsRequest where
  hostName : Bytes := []
  port : UInt16 := 0
  ipv4 : Bool := false
  ipv6 : Bool := false
  deriving DecidableEq, Repr

structure DnsResolver (α : Type) where
  resolving : Bool := false
  request : DnsRequest := {}
  names : List α := []
  deriving DecidableEq, Repr

/-- The resolvers `ι`, the lists of the loops `κ` and the worker. `job` are the worker's
local variables, which it has from one section to the next. -/
structure DnsSystem (ι κ α : Type) where
  resolvers : ι → DnsResolver α := fun _ => {}
  links : κ → WatcherLinks ι := fun _ => {}
  workQueue : List ι := []
  executingRequest : Option ι := none
  job : Option DnsRequest := none

namespace DnsSystem

variable {ι κ α : Type} [DecidableEq ι] [DecidableEq κ]

def setResolver (s : DnsSystem ι κ α) (i : ι) (r : DnsResolver α) : DnsSystem ι κ α :=
  { s with resolvers := fun j => if j = i then r else s.resolvers j }

def setLinks (s : DnsSystem ι κ α) (k : κ) (l : WatcherLinks ι) : DnsSystem ι κ α :=
  { s with links := fun other => if other = k then l else s.links other }

/-- The steps of the system. `DNSResolver::resolve` is `cancel` and then `submit`. -/
inductive Act (ι κ : Type) where
  | cancel (i : ι)
  | destroy (i : ι)
  /-- The rest of `resolve`, with the section that queues the resolver. -/
  | submit (i : ι) (request : DnsRequest)
  /-- The worker's first section, when there is a job. -/
  | takeJob
  /-- The worker's second section. -/
  | publish
  /-- A loop's wake handler moves the watchers that were called. -/
  | trigger (k : κ)
  /-- A loop starts the handler at the front of its queue. -/
  | dispatch (k : κ)
  deriving DecidableEq, Repr

/-- `resolve` submits after `cancel`; the worker takes jobs one by one. -/
def Enabled (s : DnsSystem ι κ α) : Act ι κ → Prop
  | .submit i _ => (s.resolvers i).resolving = false
  | .takeJob => s.job = none
  | .publish => s.job ≠ none
  | _ => True

-- the loop that a resolver was made on, and `DNSResolver::sync_resolve`
variable (owner : ι → κ) (syncResolve : DnsRequest → List α)

def cancel (s : DnsSystem ι κ α) (i : ι) : DnsSystem ι κ α :=
  if !(s.resolvers i).resolving then s
  else
    { (s.setLinks (owner i) ((s.links (owner i)).cancel i)).setResolver i
        { s.resolvers i with resolving := false } with
      executingRequest := if s.executingRequest = some i then none else s.executingRequest
      workQueue := IntrusiveList.unlink s.workQueue i }

/-- The destructor of the resolver, and then of its watcher. -/
def destroy (s : DnsSystem ι κ α) (i : ι) : DnsSystem ι κ α :=
  let cancelled := s.cancel owner i
  cancelled.setLinks (owner i) ((cancelled.links (owner i)).cancel i)

def submit (s : DnsSystem ι κ α) (i : ι) (request : DnsRequest) : DnsSystem ι κ α :=
  { s.setResolver i { s.resolvers i with resolving := true, request := request } with
    workQueue := IntrusiveList.pushBack s.workQueue i }

def takeJob (s : DnsSystem ι κ α) : DnsSystem ι κ α :=
  match s.workQueue with
  -- waits
  | [] => s
  | i :: rest =>
    -- the host name is moved out of the resolver
    { s.setResolver i { s.resolvers i with request.hostName := [] } with
      workQueue := rest
      executingRequest := some i
      job := some (s.resolvers i).request }

def publish (s : DnsSystem ι κ α) : DnsSystem ι κ α :=
  match s.job with
  | none => s
  | some request =>
    let names := syncResolve request
    match s.executingRequest with
    | none => { s with job := none }
    | some i =>
      { (s.setResolver i { s.resolvers i with names := names }).setLinks (owner i)
          ((s.links (owner i)).callWatcher i) with
        executingRequest := none
        job := none }

/-- The handler of a resolver's watcher is `on_handler`. -/
def dispatch (s : DnsSystem ι κ α) (k : κ) : DnsSystem ι κ α :=
  match (s.links k).triggeredCallables with
  | [] => s
  | .wake :: rest => s.setLinks k { s.links k with triggeredCallables := rest }
  | .watcher i :: rest =>
    (s.setLinks k { s.links k with triggeredCallables := rest }).setResolver i
      { s.resolvers i with resolving := false }

def next (s : DnsSystem ι κ α) : Act ι κ → DnsSystem ι κ α
  | .cancel i => s.cancel owner i
  | .destroy i => s.destroy owner i
  | .submit i request => s.submit i request
  | .takeJob => s.takeJob
  | .publish => s.publish owner syncResolve
  | .trigger k => s.setLinks k (s.links k).triggerCalledWatchers
  | .dispatch k => s.dispatch k

/-- The resolver whose `dns_handler` a step invokes, with the addresses it is given. -/
def invoked (s : DnsSystem ι κ α) : Act ι κ → Option (ι × List α)
  | .dispatch k =>
    match (s.links k).triggeredCallables with
    | .watcher i :: _ => some (i, (s.resolvers i).names)
    | _ => none
  | _ => none

/-- The system after a run. -/
def after (s : DnsSystem ι κ α) (run : List (Act ι κ)) : DnsSystem ι κ α :=
  Run.after (next owner syncResolve) s run

/-- What the handler of a resolver is given in a run, one entry an invocation. -/
def answers (s : DnsSystem ι κ α) (i : ι) (run : List (Act ι κ)) : List (List α) :=
  (Run.seen (next owner syncResolve) invoked s run).filterMap fun
    | some (j, names) => if j = i then some names else none
    | none => none

/-- An interleaving of the steps of the loops' threads and of the worker. -/
def Interleaving (s : DnsSystem ι κ α) (run : List (Act ι κ)) : Prop :=
  Run.Meets (next owner syncResolve) Enabled s run

end DnsSystem
end Crablib
