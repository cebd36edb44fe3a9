import LLMFusion.LoadBalancer

/-! What holds of the load balancer over any sequence of calls: its maps agree, and a
request is sent to the server it was sent to last or to a least loaded one. -/

namespace LLMFusion.LoadBalancer
open Runs

variable {η : Type}

/-- The maps of servers and counters have the same keys, and no counter is negative. -/
structure Agrees (balancer : Balancer η) : Prop where
  keys : balancer.servers.map Prod.fst = balancer.inflightRequests.map Prod.fst
  distinct : (balancer.inflightRequests.map Prod.fst).Nodup
  counts : ∀ entry ∈ balancer.inflightRequests, 0 ≤ entry.2

namespace Agrees
variable {balancer : Balancer η}

theorem lookups (agrees : Agrees balancer) {serverId : String} (active : balancer.active serverId = true) :
    ∃ handle count, balancer.servers.lookup serverId = some handle ∧
      balancer.inflightRequests.lookup serverId = some count ∧ 0 ≤ count := by
  have named : serverId ∈ balancer.servers.map Prod.fst := by
    rw [agrees.keys]
    exact Indexing.lookup_isSome_iff.mp active
  obtain ⟨handle, hasHandle⟩ := Option.isSome_iff_exists.mp (Indexing.lookup_isSome_iff.mpr named)
  obtain ⟨count, hasCount⟩ := Option.isSome_iff_exists.mp active
  exact ⟨handle, count, hasHandle, hasCount, agrees.counts _ (Indexing.mem_of_lookup hasCount)⟩

theorem insert (agrees : Agrees balancer) (serverId : String) (handle : η) {count : Int} (positive : 0 ≤ count) :
    Agrees { balancer with
      inflightRequests := Indexing.insert serverId count balancer.inflightRequests
      servers := Indexing.insert serverId handle balancer.servers } where
  keys := Indexing.insert_keys_congr agrees.keys
  distinct := Indexing.insert_distinct agrees.distinct
  counts := by
    intro entry member
    rcases Indexing.mem_insert member with rfl | before
    · exact positive
    · exact agrees.counts entry before

theorem insert_count (agrees : Agrees balancer) {serverId : String} {count : Int}
    (active : balancer.active serverId = true) (positive : 0 ≤ count) :
    Agrees { balancer with inflightRequests := Indexing.insert serverId count balancer.inflightRequests } := by
  obtain ⟨handle, _, hasHandle, _⟩ := agrees.lookups active
  have same := agrees.insert serverId handle positive
  rwa [Indexing.insert_lookup hasHandle] at same

theorem cache (agrees : Agrees balancer) (cache : LruCache String String) :
    Agrees { balancer with requestIdToServer := cache } :=
  ⟨agrees.keys, agrees.distinct, agrees.counts⟩

theorem remove (agrees : Agrees balancer) (serverId : String) : Agrees (removeServer balancer serverId) where
  keys := by
    change (Indexing.remove serverId balancer.servers).map Prod.fst = (Indexing.remove serverId balancer.inflightRequests).map Prod.fst
    rw [Indexing.remove_keys, Indexing.remove_keys, agrees.keys]
  distinct := agrees.distinct.sublist (List.filter_sublist.map Prod.fst)
  counts := fun entry member => agrees.counts entry (List.mem_of_mem_filter member)

theorem release (agrees : Agrees balancer) (serverId : String) : Agrees (releaseServer balancer serverId) := by
  rw [releaseServer]
  cases found : balancer.inflightRequests.lookup serverId with
  | none => exact agrees
  | some count =>
    have active : balancer.active serverId = true := by simp [Balancer.active, found]
    by_cases busy : count > 0
    · simp only [busy, if_true]
      exact agrees.insert_count active (by omega)
    · simpa only [busy, if_false] using agrees

theorem addServers (agrees : Agrees balancer) (servers : List (String × η)) : Agrees (addServers balancer servers) := by
  induction servers generalizing balancer with
  | nil => exact agrees
  | cons server servers ih => exact ih (agrees.insert server.1 server.2 (Int.le_refl 0))

theorem removeServers (agrees : Agrees balancer) (serverIds : List String) : Agrees (removeServers balancer serverIds) := by
  induction serverIds generalizing balancer with
  | nil => exact agrees
  | cons serverId serverIds ih => exact ih (agrees.remove serverId)

end Agrees

/-! ### Creation -/

private theorem dict_distinct (servers entries : List (String × η)) (distinct : (entries.map Prod.fst).Nodup) :
    ((servers.foldl (fun entries server => Indexing.insert server.1 server.2 entries) entries).map Prod.fst).Nodup := by
  induction servers generalizing entries with
  | nil => exact distinct
  | cons server servers ih => exact ih _ (Indexing.insert_distinct distinct)

theorem create_agrees {servers : List (String × η)} {cache : LruCache String String} {balancer : Balancer η}
    (created : Balancer.create servers cache = .ok balancer) :
    Agrees balancer ∧ balancer.requestIdToServer = cache ∧ ∀ entry ∈ balancer.inflightRequests, entry.2 = 0 := by
  rw [Balancer.create] at created
  split at created
  · cases created
  · cases created
    have keys : (dict servers).map Prod.fst = ((dict servers).map (fun server => (server.1, (0 : Int)))).map Prod.fst := by
      rw [List.map_map]
      rfl
    have zero : ∀ entry ∈ (dict servers).map (fun server => (server.1, (0 : Int))), entry.2 = 0 := by
      intro entry member
      obtain ⟨server, _, rfl⟩ := List.mem_map.mp member
      rfl
    refine ⟨⟨keys, ?_, fun entry member => Int.le_of_eq (zero entry member).symm⟩, rfl, zero⟩
    exact keys ▸ dict_distinct servers [] List.nodup_nil

/-! ### The least loaded server -/

private theorem least_of_rest (rest : List (String × Int)) (first : String × Int) :
    let least := rest.foldl (fun best entry => if entry.2 < best.2 then entry else best) first
    least ∈ first :: rest ∧ ∀ entry ∈ first :: rest, least.2 ≤ entry.2 := by
  induction rest generalizing first with
  | nil => simp
  | cons entry rest ih =>
    obtain ⟨member, least⟩ := ih (if entry.2 < first.2 then entry else first)
    have lower : (if entry.2 < first.2 then entry else first).2 ≤ first.2 ∧
        (if entry.2 < first.2 then entry else first).2 ≤ entry.2 := by split <;> omega
    rw [List.foldl_cons]
    refine ⟨?_, ?_⟩
    · rcases List.mem_cons.mp member with same | later
      · rw [same]
        split <;> simp
      · exact List.mem_cons_of_mem _ (List.mem_cons_of_mem _ later)
    · have best := least _ List.mem_cons_self
      intro other known
      rcases List.mem_cons.mp known with rfl | known
      · exact Int.le_trans best lower.1
      · rcases List.mem_cons.mp known with rfl | later
        · exact Int.le_trans best lower.2
        · exact least other (List.mem_cons_of_mem _ later)

theorem leastLoaded_none {requests : List (String × Int)} : leastLoaded requests = none ↔ requests = [] := by
  cases requests with
  | nil => simp [leastLoaded]
  | cons first rest => simp [leastLoaded]

theorem leastLoaded_some {requests : List (String × Int)} {serverId : String} (least : leastLoaded requests = some serverId) :
    ∃ count, (serverId, count) ∈ requests ∧ ∀ entry ∈ requests, count ≤ entry.2 := by
  cases requests with
  | nil => cases least
  | cons first rest =>
    cases least
    obtain ⟨member, least⟩ := least_of_rest rest first
    exact ⟨_, member, least⟩

/-! ### Acquisitions -/

/-- A server with the fewest requests in flight. -/
def Least (balancer : Balancer η) (serverId : String) : Prop :=
  ∃ count, balancer.inflightRequests.lookup serverId = some count ∧
    ∀ entry ∈ balancer.inflightRequests, count ≤ entry.2

/-- What an acquisition that finds a server does: the request is counted on the server
and the request id leads to it. -/
structure Acquired (balancer : Balancer η) (requestId serverId : String) (handle : η) (count : Int) (next : Balancer η) :
    Prop where
  hasCount : balancer.inflightRequests.lookup serverId = some count
  hasHandle : balancer.servers.lookup serverId = some handle
  positive : 0 ≤ count
  servers : next.servers = balancer.servers
  inflightRequests : next.inflightRequests = Indexing.insert serverId (count + 1) balancer.inflightRequests
  choice : balancer.requestIdToServer.get requestId = some serverId ∨
    (∀ last, balancer.requestIdToServer.get requestId = some last → balancer.active last = false) ∧ Least balancer serverId
  remembers : ∀ other, next.requestIdToServer.get other =
    if other = requestId then some serverId
    else if other ∈ evictedBy balancer requestId then none
    else balancer.requestIdToServer.get other

private theorem takeServer_active {balancer : Balancer η} (agrees : Agrees balancer) {serverId : String}
    (active : balancer.active serverId = true) : ∃ handle count,
      balancer.servers.lookup serverId = some handle ∧ balancer.inflightRequests.lookup serverId = some count ∧ 0 ≤ count ∧
      takeServer balancer serverId =
        ({ balancer with inflightRequests := Indexing.insert serverId (count + 1) balancer.inflightRequests },
          .ok (serverId, handle)) := by
  obtain ⟨handle, count, hasHandle, hasCount, positive⟩ := agrees.lookups active
  refine ⟨handle, count, hasHandle, hasCount, positive, ?_⟩
  rw [takeServer, hasCount]
  simp only [hasHandle]

private theorem selectServer_cases {balancer : Balancer η} (agrees : Agrees balancer) (requestId : String) :
    (balancer.inflightRequests = [] ∧ selectServer balancer requestId = (balancer, .error .noAvailableServers)) ∨
    ∃ serverId handle count, Least balancer serverId ∧
      balancer.servers.lookup serverId = some handle ∧ balancer.inflightRequests.lookup serverId = some count ∧ 0 ≤ count ∧
      selectServer balancer requestId =
        ({ balancer with
            inflightRequests := Indexing.insert serverId (count + 1) balancer.inflightRequests
            requestIdToServer := balancer.requestIdToServer.set requestId serverId },
          .ok (serverId, handle)) := by
  cases found : leastLoaded balancer.inflightRequests with
  | none =>
    refine Or.inl ⟨leastLoaded_none.mp found, ?_⟩
    rw [selectServer, found]
  | some serverId =>
    obtain ⟨least, member, isLeast⟩ := leastLoaded_some found
    have hasLeast := Indexing.lookup_of_mem agrees.distinct member
    have active : balancer.active serverId = true := by simp [Balancer.active, hasLeast]
    obtain ⟨handle, count, hasHandle, hasCount, positive, taken⟩ :=
      takeServer_active (agrees.cache (balancer.requestIdToServer.set requestId serverId)) active
    refine Or.inr ⟨serverId, handle, count, ⟨least, hasLeast, isLeast⟩, hasHandle, hasCount, positive, ?_⟩
    rw [selectServer, found]
    exact taken

/-- An acquisition fails and leaves servers and counters alone when the pool is empty;
else it succeeds. -/
theorem acquireServer_cases {balancer : Balancer η} (agrees : Agrees balancer) (requestId : String) :
    (balancer.inflightRequests = [] ∧ ∃ cache, acquireServer balancer requestId =
        ({ balancer with requestIdToServer := cache }, .error .noAvailableServers) ∧
      ∀ other, cache.get other = if other = requestId then none else balancer.requestIdToServer.get other) ∨
    ∃ serverId handle count next, acquireServer balancer requestId = (next, .ok (serverId, handle)) ∧
      Acquired balancer requestId serverId handle count next := by
  rw [acquireServer]
  cases last : balancer.requestIdToServer.get requestId with
  | none =>
    rcases selectServer_cases agrees requestId with ⟨empty, failed⟩ | ⟨serverId, handle, count, least, hasHandle, hasCount, positive, done⟩
    · refine Or.inl ⟨empty, balancer.requestIdToServer, failed, ?_⟩
      intro other
      by_cases same : other = requestId
      · rw [if_pos same, same, last]
      · rw [if_neg same]
    · refine Or.inr ⟨serverId, handle, count, _, done, hasCount, hasHandle, positive, rfl, rfl, ?_, ?_⟩
      · exact Or.inr ⟨by simp [last], least⟩
      · intro other
        have some : balancer.inflightRequests.isEmpty = false := by
          cases isEntries : balancer.inflightRequests with
          | nil => simp [isEntries] at hasCount
          | cons => rfl
        rw [LruCache.get_set, evictedBy, some]
        simp [last]
  | some lastServer =>
    by_cases active : balancer.active lastServer = true
    · obtain ⟨handle, count, hasHandle, hasCount, positive, taken⟩ :=
        takeServer_active (agrees.cache (balancer.requestIdToServer.touch requestId)) active
      simp only [active, if_true]
      refine Or.inr ⟨lastServer, handle, count, _, taken, hasCount, hasHandle, positive, rfl, rfl, Or.inl last, ?_⟩
      intro other
      have nothing : evictedBy balancer requestId = [] := by simp [evictedBy, last, active]
      rw [nothing]
      by_cases same : other = requestId
      · simp [same, last]
      · simp [same]
    · simp only [active]
      rcases selectServer_cases (agrees.cache (balancer.requestIdToServer.remove requestId)) requestId with
        ⟨empty, failed⟩ | ⟨serverId, handle, count, least, hasHandle, hasCount, positive, done⟩
      · exact Or.inl ⟨empty, _, failed, LruCache.get_remove balancer.requestIdToServer requestId⟩
      · refine Or.inr ⟨serverId, handle, count, _, done, hasCount, hasHandle, positive, rfl, rfl, ?_, ?_⟩
        · refine Or.inr ⟨?_, least⟩
          intro other isLast
          rw [last, Option.some.injEq] at isLast
          subst isLast
          simpa using active
        · intro other
          have some : balancer.inflightRequests.isEmpty = false := by
            cases isEntries : balancer.inflightRequests with
            | nil => simp [isEntries] at hasCount
            | cons => rfl
          rw [LruCache.get_set, LruCache.get_remove, evictedBy, some]
          by_cases same : other = requestId
          · simp [same]
          · simp [same, last, active]

theorem Acquired.agrees {balancer next : Balancer η} {requestId serverId : String} {handle : η} {count : Int}
    (acquired : Acquired balancer requestId serverId handle count next) (agrees : Agrees balancer) : Agrees next := by
  have positive := acquired.positive
  have active : balancer.active serverId = true := by simp [Balancer.active, acquired.hasCount]
  have counted := agrees.insert_count active (show 0 ≤ count + 1 by omega)
  refine ⟨?_, ?_, ?_⟩
  · rw [acquired.servers, acquired.inflightRequests]
    exact counted.keys
  · rw [acquired.inflightRequests]
    exact counted.distinct
  · rw [acquired.inflightRequests]
    exact counted.counts

theorem Agrees.acquire {balancer : Balancer η} (agrees : Agrees balancer) (requestId : String) :
    Agrees (acquireServer balancer requestId).1 := by
  rcases acquireServer_cases agrees requestId with ⟨_, cache, failed, _⟩ | ⟨_, _, _, _, done, acquired⟩
  · rw [failed]
    exact agrees.cache cache
  · rw [done]
    exact acquired.agrees agrees

/-! ### Sequences of calls -/

@[simp] theorem releaseServer_requestIdToServer (balancer : Balancer η) (serverId : String) :
    (releaseServer balancer serverId).requestIdToServer = balancer.requestIdToServer := by
  rw [releaseServer]
  split
  · rfl
  · split <;> rfl

@[simp] theorem addServers_requestIdToServer (balancer : Balancer η) (servers : List (String × η)) :
    (addServers balancer servers).requestIdToServer = balancer.requestIdToServer := by
  induction servers generalizing balancer with
  | nil => rfl
  | cons server servers ih => exact ih (addServer balancer server)

@[simp] theorem removeServers_requestIdToServer (balancer : Balancer η) (serverIds : List String) :
    (removeServers balancer serverIds).requestIdToServer = balancer.requestIdToServer := by
  induction serverIds generalizing balancer with
  | nil => rfl
  | cons serverId serverIds ih => exact ih (removeServer balancer serverId)

structure Routed (events : List (Event η)) (balancer : Balancer η) : Prop where
  agrees : Agrees balancer
  remembered : ∀ requestId, balancer.requestIdToServer.get requestId = events.foldl (remember requestId) none

private theorem acquire_remembered {balancer : Balancer η} (agrees : Agrees balancer) (requestId other : String) :
    (acquireServer balancer requestId).1.requestIdToServer.get other =
      remember other (balancer.requestIdToServer.get other)
        (.acquire requestId (evictedBy balancer requestId) (acquireServer balancer requestId).2) := by
  rcases acquireServer_cases agrees requestId with ⟨empty, cache, failed, entries⟩ | ⟨_, _, _, _, done, acquired⟩
  · have nothing : evictedBy balancer requestId = [] := by simp [evictedBy, empty]
    rw [failed, nothing]
    change cache.get other = _
    rw [entries, remember]
    by_cases same : requestId = other
    · simp [same]
    · simp [same, Ne.symm same]
  · rw [done, remember]
    rw [acquired.remembers]
    by_cases same : requestId = other
    · simp [same]
    · simp [same, Ne.symm same]

private theorem Routed.step {events : List (Event η)} {balancer next : Balancer η} {event : Event η}
    (routed : Routed events balancer) (taken : Step balancer event next) : Routed (events ++ [event]) next := by
  have appended : ∀ requestId, (events ++ [event]).foldl (remember requestId) none =
      remember requestId (balancer.requestIdToServer.get requestId) event := by
    intro requestId
    rw [List.foldl_append, routed.remembered, List.foldl_cons, List.foldl_nil]
  cases taken with
  | acquire requestId =>
    refine ⟨routed.agrees.acquire requestId, ?_⟩
    intro other
    rw [appended, acquire_remembered routed.agrees]
  | release serverId =>
    refine ⟨routed.agrees.release serverId, ?_⟩
    intro requestId
    rw [appended, releaseServer_requestIdToServer, remember]
  | add servers =>
    refine ⟨routed.agrees.addServers servers, ?_⟩
    intro requestId
    rw [appended, addServers_requestIdToServer, remember]
  | remove serverIds =>
    refine ⟨routed.agrees.removeServers serverIds, ?_⟩
    intro requestId
    rw [appended, removeServers_requestIdToServer, remember]

theorem calls_routed {servers : List (String × η)} {maxCacheSize : Nat} {positive : 0 < maxCacheSize}
    {events : List (Event η)} {balancer : Balancer η} (calls : Calls servers maxCacheSize positive events balancer) :
    Routed events balancer := by
  obtain ⟨start, created, run⟩ := calls
  obtain ⟨agrees, isCache, _⟩ := create_agrees created
  have initial : Routed [] start := by
    refine ⟨agrees, ?_⟩
    intro requestId
    rw [isCache]
    rfl
  exact Run.invariant Routed initial (fun _ _ _ _ => Routed.step) run

/-- What the next acquisition for a request id may rely on behind some calls. -/
structure Contract (events : List (Event η)) (balancer : Balancer η) (requestId : String) : Prop where
  keys : balancer.servers.map Prod.fst = balancer.inflightRequests.map Prod.fst
  counts : ∀ entry ∈ balancer.inflightRequests, 0 ≤ entry.2
  raises : (∃ failure, (acquireServer balancer requestId).2 = .error failure) ↔ ∀ serverId, balancer.active serverId = false
  unchanged : ∀ failure, (acquireServer balancer requestId).2 = .error failure → failure = .noAvailableServers ∧
    (acquireServer balancer requestId).1.servers = balancer.servers ∧
    (acquireServer balancer requestId).1.inflightRequests = balancer.inflightRequests
  returns : ∀ serverId handle, (acquireServer balancer requestId).2 = .ok (serverId, handle) →
    balancer.active serverId = true ∧ balancer.servers.lookup serverId = some handle
  sticky : ∀ last, events.foldl (remember requestId) none = some last → balancer.active last = true →
    ∃ handle, (acquireServer balancer requestId).2 = .ok (last, handle)
  least : (∀ last, events.foldl (remember requestId) none = some last → balancer.active last = false) →
    ∀ serverId handle, (acquireServer balancer requestId).2 = .ok (serverId, handle) → Least balancer serverId

/-- A request goes to the server it went to last while that one is in the pool and the
request id in the cache, else to a least loaded server. -/
theorem acquire_contract {servers : List (String × η)} {maxCacheSize : Nat} {positive : 0 < maxCacheSize}
    {events : List (Event η)} {balancer : Balancer η} (calls : Calls servers maxCacheSize positive events balancer)
    (requestId : String) : Contract events balancer requestId := by
  have routed := calls_routed calls
  have agrees := routed.agrees
  rcases acquireServer_cases agrees requestId with ⟨empty, cache, failed, _⟩ | ⟨serverId, handle, count, next, done, acquired⟩
  · have inactive : ∀ serverId, balancer.active serverId = false := by
      intro serverId
      simp [Balancer.active, empty]
    refine ⟨agrees.keys, agrees.counts, ?_, ?_, ?_, ?_, ?_⟩
    · exact ⟨fun _ => inactive, fun _ => ⟨.noAvailableServers, by rw [failed]⟩⟩
    · intro failure raised
      rw [failed] at raised ⊢
      cases raised
      exact ⟨rfl, rfl, rfl⟩
    · intro serverId handle returned
      rw [failed] at returned
      cases returned
    · intro last _ active
      rw [inactive] at active
      cases active
    · intro _ serverId handle returned
      rw [failed] at returned
      cases returned
  · have active : balancer.active serverId = true := by simp [Balancer.active, acquired.hasCount]
    refine ⟨agrees.keys, agrees.counts, ?_, ?_, ?_, ?_, ?_⟩
    · constructor
      · rintro ⟨failure, raised⟩
        rw [done] at raised
        cases raised
      · intro inactive
        rw [inactive] at active
        cases active
    · intro failure raised
      rw [done] at raised
      cases raised
    · intro other otherHandle returned
      rw [done] at returned
      cases returned
      exact ⟨active, acquired.hasHandle⟩
    · intro last isLast lastActive
      rw [← routed.remembered] at isLast
      rcases acquired.choice with same | ⟨inactive, _⟩
      · rw [isLast, Option.some.injEq] at same
        exact ⟨handle, by rw [done, same]⟩
      · rw [inactive last isLast] at lastActive
        cases lastActive
    · intro inactive other otherHandle returned
      rw [done] at returned
      cases returned
      rcases acquired.choice with isLast | ⟨_, least⟩
      · rw [routed.remembered] at isLast
        rw [inactive serverId isLast] at active
        cases active
      · exact least

private def single : Balancer Nat := ⟨[("a", 1)], [("a", 0)], LruCache.empty String String 2 Nat.two_pos⟩

private theorem single_created : Balancer.create [("a", 1)] (LruCache.empty String String 2 Nat.two_pos) = .ok single := rfl

theorem acquire_contract_again : Contract
    [.acquire "r" (evictedBy single "r") (acquireServer single "r").2] (acquireServer single "r").1 "r" :=
  acquire_contract ⟨single, single_created, .single (.acquire single "r")⟩ "r"

/-- The server was removed and added again since the request id was sent to it, and has
more requests than the other one. -/
theorem removed_server_still_sticky : ∃ events balancer, Calls [("a", 1)] 2 Nat.two_pos events balancer ∧
    events.foldl (remember "r1") none = some "a" ∧ events.foldl (rememberActive "r1") none = none ∧
    (acquireServer balancer "r1").2 = .ok ("a", 2) ∧ balancer.inflightRequests = [("a", 1), ("b", 0)] := by
  let first := (acquireServer single "r1").1
  let removed := removeServers first ["a"]
  let again := addServers removed [("a", 2)]
  let second := (acquireServer again "r2").1
  have run := Run.step (Run.step (Run.step (Run.step (Run.single (Step.acquire single "r1"))
    (Step.remove first ["a"])) (Step.add removed [("a", 2)])) (Step.acquire again "r2")) (Step.add second [("b", 3)])
  exact ⟨_, _, ⟨single, single_created, run⟩, by decide, by decide, by decide, by decide⟩

end LLMFusion.LoadBalancer
