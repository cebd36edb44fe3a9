import LLMFusion.Lib.Indexing
import LLMFusion.Lib.LruCache
import LLMFusion.Lib.Runs

/-! The load balancer that all clients share. A request goes to the server that it was
sent to last, while that one is in the pool, and else to a least loaded server. -/

namespace LLMFusion.LoadBalancer
open Runs

inductive Failure where
  | noServersGiven
  | noAvailableServers
  | keyError
  deriving DecidableEq, Repr

/-- `GlobalRequestLoadBalancer`, with server handles of type `η`. -/
structure Balancer (η : Type) where
  servers : List (String × η)
  inflightRequests : List (String × Int)
  requestIdToServer : LruCache String String

variable {η : Type}

/-- `dict(servers)` -/
def dict (servers : List (String × η)) : List (String × η) :=
  servers.foldl (fun entries server => Indexing.insert server.1 server.2 entries) []

/-- `__init__` -/
def Balancer.create (servers : List (String × η)) (cache : LruCache String String) : Except Failure (Balancer η) :=
  if servers.isEmpty then .error .noServersGiven
  else .ok ⟨dict servers, (dict servers).map (fun server => (server.1, 0)), cache⟩

/-- `min(self._inflight_requests, key=self._inflight_requests.get)`: the first of the least. -/
def leastLoaded : List (String × Int) → Option String
  | [] => none
  | first :: rest => some (rest.foldl (fun best entry => if entry.2 < best.2 then entry else best) first).1

/-- `self._inflight_requests[server_id] += 1` and the handle of the server. -/
def takeServer (balancer : Balancer η) (serverId : String) : Balancer η × Except Failure (String × η) :=
  match balancer.inflightRequests.lookup serverId with
  | none => (balancer, .error .keyError)
  | some count =>
    ({ balancer with inflightRequests := Indexing.insert serverId (count + 1) balancer.inflightRequests },
      match balancer.servers.lookup serverId with
      | some handle => .ok (serverId, handle)
      | none => .error .keyError)

def selectServer (balancer : Balancer η) (requestId : String) : Balancer η × Except Failure (String × η) :=
  match leastLoaded balancer.inflightRequests with
  | none => (balancer, .error .noAvailableServers)
  | some serverId =>
    takeServer { balancer with requestIdToServer := balancer.requestIdToServer.set requestId serverId } serverId

/-- Whether a server is in the pool. -/
def Balancer.active (balancer : Balancer η) (serverId : String) : Bool :=
  (balancer.inflightRequests.lookup serverId).isSome

def acquireServer (balancer : Balancer η) (requestId : String) : Balancer η × Except Failure (String × η) :=
  match balancer.requestIdToServer.get requestId with
  | some serverId =>
    if balancer.active serverId then
      takeServer { balancer with requestIdToServer := balancer.requestIdToServer.touch requestId } serverId
    else selectServer { balancer with requestIdToServer := balancer.requestIdToServer.remove requestId } requestId
  | none => selectServer balancer requestId

def releaseServer (balancer : Balancer η) (serverId : String) : Balancer η :=
  match balancer.inflightRequests.lookup serverId with
  | none => balancer
  | some count =>
    if count > 0 then { balancer with inflightRequests := Indexing.insert serverId (count - 1) balancer.inflightRequests }
    else balancer

def addServer (balancer : Balancer η) (server : String × η) : Balancer η :=
  { balancer with
    inflightRequests := Indexing.insert server.1 0 balancer.inflightRequests
    servers := Indexing.insert server.1 server.2 balancer.servers }

def addServers (balancer : Balancer η) (servers : List (String × η)) : Balancer η := servers.foldl addServer balancer

def removeServer (balancer : Balancer η) (serverId : String) : Balancer η :=
  { balancer with
    inflightRequests := Indexing.remove serverId balancer.inflightRequests
    servers := Indexing.remove serverId balancer.servers }

def removeServers (balancer : Balancer η) (serverIds : List String) : Balancer η :=
  serverIds.foldl removeServer balancer

/-! ### Sequences of calls -/

/-- The request ids that an acquisition pushes out of the cache. -/
def evictedBy (balancer : Balancer η) (requestId : String) : List String :=
  if balancer.inflightRequests.isEmpty then []
  else match balancer.requestIdToServer.get requestId with
    | some serverId =>
      if balancer.active serverId then []
      else (balancer.requestIdToServer.remove requestId).evicted requestId
    | none => balancer.requestIdToServer.evicted requestId

/-- A call, with what an acquisition evicts and returns. -/
inductive Event (η : Type) where
  | acquire (requestId : String) (evicted : List String) (result : Except Failure (String × η))
  | release (serverId : String)
  | add (servers : List (String × η))
  | remove (serverIds : List String)

inductive Step : Balancer η → Event η → Balancer η → Prop where
  | acquire (balancer : Balancer η) (requestId : String) :
      Step balancer (.acquire requestId (evictedBy balancer requestId) (acquireServer balancer requestId).2)
        (acquireServer balancer requestId).1
  | release (balancer : Balancer η) (serverId : String) :
      Step balancer (.release serverId) (releaseServer balancer serverId)
  | add (balancer : Balancer η) (servers : List (String × η)) :
      Step balancer (.add servers) (addServers balancer servers)
  | remove (balancer : Balancer η) (serverIds : List String) :
      Step balancer (.remove serverIds) (removeServers balancer serverIds)

/-- The calls on a new load balancer, in any order. -/
def Calls (servers : List (String × η)) (maxCacheSize : Nat) (positive : 0 < maxCacheSize) (events : List (Event η))
    (balancer : Balancer η) : Prop :=
  ∃ start, Balancer.create servers (LruCache.empty String String maxCacheSize positive) = .ok start ∧
    Run Step start events balancer

/-- The server that a request id was sent to last, unless the id was evicted since or
found no server. -/
def remember (requestId : String) (last : Option String) : Event η → Option String
  | .acquire other evicted result =>
    if other = requestId then
      match result with
      | .ok server => some server.1
      | .error _ => none
    else if requestId ∈ evicted then none
    else last
  | .release _ | .add _ | .remove _ => last

/-- The same, but the server is forgotten when it is removed. -/
def rememberActive (requestId : String) (last : Option String) (event : Event η) : Option String :=
  match event with
  | .remove serverIds => last.filter (fun serverId => serverId ∉ serverIds)
  | event => remember requestId last event

/-! ### Requests in flight -/

/-- A load balancer with the acquisitions that are not released: the server of each and
how often that server had been added by then. -/
structure Ledger (η : Type) where
  balancer : Balancer η
  opened : List (String × Nat)
  terms : String → Nat

inductive Action (η : Type) where
  | acquire (requestId : String)
  | release (ticket : String × Nat)
  | add (servers : List (String × η))
  | remove (serverIds : List String)

def Ledger.acquired (ledger : Ledger η) (requestId : String) : List (String × Nat) :=
  match (acquireServer ledger.balancer requestId).2 with
  | .ok server => [(server.1, ledger.terms server.1)]
  | .error _ => []

/-- A server that is already in the pool is not counted as added again. -/
def Ledger.added (ledger : Ledger η) (servers : List (String × η)) (serverId : String) : Nat :=
  if serverId ∈ servers.map Prod.fst ∧ ledger.balancer.active serverId = false then ledger.terms serverId + 1
  else ledger.terms serverId

/-- The calls where each release belongs to an acquisition that is still open. -/
inductive Ledger.Step : Ledger η → Action η → Ledger η → Prop where
  | acquire (ledger : Ledger η) (requestId : String) :
      Step ledger (.acquire requestId)
        { ledger with
          balancer := (acquireServer ledger.balancer requestId).1
          opened := ledger.acquired requestId ++ ledger.opened }
  | release (ledger : Ledger η) (ticket : String × Nat) (isOpen : ticket ∈ ledger.opened) :
      Step ledger (.release ticket)
        { ledger with
          balancer := releaseServer ledger.balancer ticket.1
          opened := ledger.opened.erase ticket }
  | add (ledger : Ledger η) (servers : List (String × η)) :
      Step ledger (.add servers)
        { ledger with
          balancer := addServers ledger.balancer servers
          terms := ledger.added servers }
  | remove (ledger : Ledger η) (serverIds : List String) :
      Step ledger (.remove serverIds) { ledger with balancer := removeServers ledger.balancer serverIds }

/-- The counter of each active server is the number of open acquisitions since it was added. -/
def Ledger.Counted (ledger : Ledger η) : Prop :=
  ∀ serverId count, ledger.balancer.inflightRequests.lookup serverId = some count →
    count = ledger.opened.count (serverId, ledger.terms serverId)

/-- No active server with requests is added, and while the server of a late release has
requests the release is one of them. -/
def Ledger.Admissible (ledger : Ledger η) : Action η → Prop
  | .acquire _ | .remove _ => True
  | .release ticket =>
    ∀ count, ledger.balancer.inflightRequests.lookup ticket.1 = some count →
      ticket.2 = ledger.terms ticket.1 ∨ count = 0
  | .add servers =>
    ∀ server ∈ servers, ∀ count, ledger.balancer.inflightRequests.lookup server.1 = some count → count = 0

def Ledger.AdmissibleStep (ledger : Ledger η) (action : Action η) (next : Ledger η) : Prop :=
  ledger.Admissible action ∧ ledger.Step action next

/-- A new load balancer without requests. -/
def Ledger.Fresh (servers : List (String × η)) (maxCacheSize : Nat) (positive : 0 < maxCacheSize)
    (ledger : Ledger η) : Prop :=
  Balancer.create servers (LruCache.empty String String maxCacheSize positive) = .ok ledger.balancer ∧
    ledger.opened = [] ∧ ∀ serverId, ledger.terms serverId = 0

end LLMFusion.LoadBalancer
