import LLMFusion.Proofs.LoadBalancer

/-! The counter of a server is the number of its requests in flight as long as no
server with requests is added again and no release comes from before the server was
added. -/

namespace LLMFusion.LoadBalancer
open Runs

variable {η : Type}

/-! ### Counters behind a call -/

theorem releaseServer_lookup (balancer : Balancer η) (serverId other : String) :
    (releaseServer balancer serverId).inflightRequests.lookup other =
      (balancer.inflightRequests.lookup other).map
        (fun count => if other = serverId ∧ 0 < count then count - 1 else count) := by
  rw [releaseServer]
  cases found : balancer.inflightRequests.lookup serverId with
  | none =>
    by_cases same : other = serverId
    · simp [same, found]
    · simp [same]
  | some count =>
    by_cases busy : count > 0
    · simp only [busy, if_true, Indexing.lookup_insert]
      by_cases same : other = serverId
      · simp [same, found, busy]
      · simp [same]
    · simp only [busy, if_false]
      by_cases same : other = serverId
      · simp [same, found, busy]
      · simp [same]

theorem addServers_lookup (balancer : Balancer η) (servers : List (String × η)) (other : String) :
    (addServers balancer servers).inflightRequests.lookup other =
      if other ∈ servers.map Prod.fst then some 0 else balancer.inflightRequests.lookup other := by
  induction servers generalizing balancer with
  | nil => simp [addServers]
  | cons server servers ih =>
    change (addServers (addServer balancer server) servers).inflightRequests.lookup other = _
    rw [ih, addServer, Indexing.lookup_insert]
    by_cases later : other ∈ servers.map Prod.fst
    · simp [later]
    · simp [later]

theorem removeServers_lookup (balancer : Balancer η) (serverIds : List String) (other : String) :
    (removeServers balancer serverIds).inflightRequests.lookup other =
      if other ∈ serverIds then none else balancer.inflightRequests.lookup other := by
  induction serverIds generalizing balancer with
  | nil => simp [removeServers]
  | cons serverId serverIds ih =>
    change (removeServers (removeServer balancer serverId) serverIds).inflightRequests.lookup other = _
    rw [ih, removeServer, Indexing.lookup_remove]
    by_cases later : other ∈ serverIds
    · simp [later]
    · simp [later]

/-! ### Ledgers -/

namespace Ledger

/-- The counters are right and no open acquisition is from the future. -/
structure Sound (ledger : Ledger η) : Prop where
  agrees : Agrees ledger.balancer
  counted : ledger.Counted
  past : ∀ ticket ∈ ledger.opened, ticket.2 ≤ ledger.terms ticket.1

variable {ledger next : Ledger η}

theorem terms_le_added (ledger : Ledger η) (servers : List (String × η)) (serverId : String) :
    ledger.terms serverId ≤ ledger.added servers serverId := by
  rw [added]
  split <;> omega

private theorem Sound.acquire (sound : ledger.Sound) (requestId : String) :
    Sound { ledger with
      balancer := (acquireServer ledger.balancer requestId).1
      opened := ledger.acquired requestId ++ ledger.opened } := by
  have agrees := sound.agrees.acquire requestId
  rcases acquireServer_cases sound.agrees requestId with ⟨_, cache, failed, _⟩ | ⟨serverId, handle, before, after, done, taken⟩
  · have nothing : ledger.acquired requestId = [] := by simp [Ledger.acquired, failed]
    refine ⟨agrees, ?_, ?_⟩
    · rw [nothing, failed]
      exact sound.counted
    · rw [nothing]
      exact sound.past
  · have ticket : ledger.acquired requestId = [(serverId, ledger.terms serverId)] := by simp [Ledger.acquired, done]
    refine ⟨agrees, ?_, ?_⟩
    · intro other count hasCount
      change (acquireServer ledger.balancer requestId).1.inflightRequests.lookup other = some count at hasCount
      change count = ((ledger.acquired requestId ++ ledger.opened).count (other, ledger.terms other) : Nat)
      rw [done, taken.inflightRequests, Indexing.lookup_insert] at hasCount
      rw [ticket, List.singleton_append, List.count_cons]
      by_cases same : other = serverId
      · rw [if_pos same, Option.some.injEq] at hasCount
        have counted := sound.counted serverId before taken.hasCount
        simp [same]
        omega
      · rw [if_neg same] at hasCount
        simp [Ne.symm same, sound.counted other count hasCount]
    · intro other member
      change other ∈ ledger.acquired requestId ++ ledger.opened at member
      rw [ticket] at member
      rcases List.mem_append.mp member with isNew | before
      · obtain rfl : other = (serverId, ledger.terms serverId) := List.mem_singleton.mp isNew
        exact Nat.le_refl _
      · exact sound.past other before

private theorem Sound.release_counted_iff (sound : ledger.Sound) {ticket : String × Nat} (isOpen : ticket ∈ ledger.opened) :
    Counted { ledger with
      balancer := releaseServer ledger.balancer ticket.1
      opened := ledger.opened.erase ticket } ↔ ledger.Admissible (.release ticket) := by
  have others : ∀ serverId, (ledger.opened.erase ticket).count (serverId, ledger.terms serverId) =
      ledger.opened.count (serverId, ledger.terms serverId) - if ticket = (serverId, ledger.terms serverId) then 1 else 0 := by
    intro serverId
    simp only [List.count_erase, beq_iff_eq]
  constructor
  · intro counted count hasCount
    have before := sound.counted ticket.1 count hasCount
    have after := counted ticket.1 (if ticket.1 = ticket.1 ∧ 0 < count then count - 1 else count)
      (by simp only [releaseServer_lookup, hasCount, Option.map_some])
    by_cases current : ticket.2 = ledger.terms ticket.1
    · exact Or.inl current
    · have different : ticket ≠ (ticket.1, ledger.terms ticket.1) := fun same => current (congrArg Prod.snd same)
      simp only [others, different, if_false, true_and] at after
      split at after <;> omega
  · intro admissible serverId count hasCount
    simp only [releaseServer_lookup, Option.map_eq_some_iff] at hasCount
    obtain ⟨before, hasBefore, rfl⟩ := hasCount
    have counted := sound.counted serverId before hasBefore
    simp only [others]
    by_cases here : serverId = ticket.1
    · subst here
      rcases admissible before hasBefore with current | idle
      · have same : ticket = (ticket.1, ledger.terms ticket.1) := Prod.ext rfl current
        have positive : 0 < ledger.opened.count (ticket.1, ledger.terms ticket.1) :=
          List.count_pos_iff.mpr (same ▸ isOpen)
        simp only [← same, if_true, true_and]
        rw [← same] at counted positive
        rw [if_pos (by omega)]
        omega
      · have absent : ticket ≠ (ticket.1, ledger.terms ticket.1) := by
          intro same
          have positive : 0 < ledger.opened.count (ticket.1, ledger.terms ticket.1) :=
            List.count_pos_iff.mpr (same ▸ isOpen)
          omega
        simp only [absent, if_false, idle]
        simp [← counted, idle]
    · have different : ticket ≠ (serverId, ledger.terms serverId) := fun same => here (congrArg Prod.fst same).symm
      simp [here, different, counted]

private theorem Sound.added_current (sound : ledger.Sound) {servers : List (String × η)} {serverId : String}
    (isAdded : serverId ∈ servers.map Prod.fst) (inactive : ledger.balancer.active serverId = false) :
    ledger.opened.count (serverId, ledger.added servers serverId) = 0 := by
  rw [List.count_eq_zero]
  intro member
  have past := sound.past _ member
  simp only [added, isAdded, inactive, and_self, if_true] at past
  omega

private theorem Sound.add_counted_iff (sound : ledger.Sound) (servers : List (String × η)) :
    Counted { ledger with
      balancer := addServers ledger.balancer servers
      terms := ledger.added servers } ↔ ledger.Admissible (.add servers) := by
  have kept : ∀ serverId, ledger.balancer.active serverId = true → ledger.added servers serverId = ledger.terms serverId := by
    intro serverId active
    simp [added, active]
  constructor
  · intro counted server member count hasCount
    have isAdded : server.1 ∈ servers.map Prod.fst := List.mem_map_of_mem member
    have active : ledger.balancer.active server.1 = true := by simp [Balancer.active, hasCount]
    have after := counted server.1 0 (by simp only [addServers_lookup, isAdded, if_true])
    simp only [kept server.1 active] at after
    rw [sound.counted server.1 count hasCount, ← after]
  · intro admissible serverId count hasCount
    simp only [addServers_lookup] at hasCount
    change count = (ledger.opened.count (serverId, ledger.added servers serverId) : Nat)
    by_cases isAdded : serverId ∈ servers.map Prod.fst
    · rw [if_pos isAdded, Option.some.injEq] at hasCount
      subst hasCount
      cases found : ledger.balancer.inflightRequests.lookup serverId with
      | none => rw [sound.added_current isAdded (by simp [Balancer.active, found])]; rfl
      | some before =>
        obtain ⟨server, member, rfl⟩ := List.mem_map.mp isAdded
        rw [kept server.1 (by simp [Balancer.active, found]), ← sound.counted server.1 before found,
          admissible server member before found]
    · rw [if_neg isAdded] at hasCount
      rw [kept serverId (by simp [Balancer.active, hasCount])]
      exact sound.counted serverId count hasCount

theorem Sound.counted_iff (sound : ledger.Sound) {action : Action η} (taken : ledger.Step action next) :
    next.Counted ↔ ledger.Admissible action := by
  cases taken with
  | acquire requestId => exact iff_of_true (sound.acquire requestId).counted trivial
  | release ticket isOpen => exact sound.release_counted_iff isOpen
  | add servers => exact sound.add_counted_iff servers
  | remove serverIds =>
    refine iff_of_true ?_ trivial
    intro serverId count hasCount
    simp only [removeServers_lookup] at hasCount
    split at hasCount
    · cases hasCount
    · exact sound.counted serverId count hasCount

theorem Sound.step (sound : ledger.Sound) {action : Action η} (taken : ledger.AdmissibleStep action next) :
    next.Sound := by
  obtain ⟨admissible, taken⟩ := taken
  have counted := (sound.counted_iff taken).mpr admissible
  cases taken with
  | acquire requestId => exact sound.acquire requestId
  | release ticket isOpen =>
    exact ⟨sound.agrees.release ticket.1, counted, fun other member => sound.past other (List.mem_of_mem_erase member)⟩
  | add servers =>
    refine ⟨sound.agrees.addServers servers, counted, ?_⟩
    intro ticket member
    exact Nat.le_trans (sound.past ticket member) (ledger.terms_le_added servers ticket.1)
  | remove serverIds => exact ⟨sound.agrees.removeServers serverIds, counted, sound.past⟩

theorem Fresh.sound {servers : List (String × η)} {maxCacheSize : Nat} {positive : 0 < maxCacheSize}
    (fresh : Fresh servers maxCacheSize positive ledger) : ledger.Sound := by
  obtain ⟨created, empty, _⟩ := fresh
  obtain ⟨agrees, _, zero⟩ := create_agrees created
  refine ⟨agrees, ?_, by simp [empty]⟩
  intro serverId count hasCount
  have isZero : count = 0 := zero _ (Indexing.mem_of_lookup hasCount)
  rw [isZero, empty]
  rfl

/-- The counters are right behind every run of admissible calls, and a further call
keeps them right exactly when it is admissible too. -/
theorem counted_while_admissible {servers : List (String × η)} {maxCacheSize : Nat} {positive : 0 < maxCacheSize}
    {start : Ledger η} {actions : List (Action η)} (fresh : Fresh servers maxCacheSize positive start)
    (run : Run AdmissibleStep start actions ledger) :
    ledger.Counted ∧ ∀ action next, ledger.Step action next → (next.Counted ↔ ledger.Admissible action) := by
  have sound : ledger.Sound :=
    Run.invariant (fun _ => Sound) fresh.sound (fun _ _ _ _ sound taken => sound.step taken) run
  exact ⟨sound.counted, fun _ _ => sound.counted_iff⟩

private def fresh : Ledger Nat := ⟨⟨[("a", 1)], [("a", 0)], LruCache.empty String String 2 Nat.two_pos⟩, [], fun _ => 0⟩

private theorem fresh_fresh : Fresh [("a", 1)] 2 Nat.two_pos fresh := ⟨rfl, rfl, fun _ => rfl⟩

private def acquireOne (ledger : Ledger Nat) : Ledger Nat :=
  { ledger with
    balancer := (acquireServer ledger.balancer "r").1
    opened := ledger.acquired "r" ++ ledger.opened }

theorem counted_while_admissible_one :
    (acquireOne fresh).Counted ∧
      ∀ action next, (acquireOne fresh).Step action next → (next.Counted ↔ (acquireOne fresh).Admissible action) :=
  counted_while_admissible fresh_fresh (.single (show AdmissibleStep fresh (.acquire "r") _ from ⟨trivial, .acquire fresh "r"⟩))

/-- Adding an active server again forgets its request, and the release of a request from
before a server was removed is taken off the request that came behind. -/
theorem counter_drifts :
    (∃ ledger : Ledger Nat, Run Step fresh [.acquire "r", .add [("a", 1)]] ledger ∧
      ledger.balancer.inflightRequests = [("a", 0)] ∧ ledger.opened = [("a", ledger.terms "a")] ∧ ¬ ledger.Counted) ∧
    ∃ ledger : Ledger Nat,
      Run Step fresh [.acquire "r", .remove ["a"], .add [("a", 1)], .acquire "r", .release ("a", 0)] ledger ∧
      ledger.balancer.inflightRequests = [("a", 0)] ∧ ledger.opened = [("a", ledger.terms "a")] ∧ ¬ ledger.Counted := by
  have drifted : ∀ ledger : Ledger Nat, ledger.balancer.inflightRequests = [("a", 0)] →
      ledger.opened = [("a", ledger.terms "a")] → ¬ ledger.Counted := by
    intro ledger idle busy counted
    have none := counted "a" 0 (by simp [idle])
    simp [busy] at none
  have acquired := Run.single (Step.acquire fresh "r")
  constructor
  · refine ⟨_, .step acquired (.add (acquireOne fresh) [("a", 1)]), by decide, by decide, drifted _ (by decide) (by decide)⟩
  · let removed : Ledger Nat := { acquireOne fresh with balancer := removeServers (acquireOne fresh).balancer ["a"] }
    let again : Ledger Nat :=
      { removed with
        balancer := addServers removed.balancer [("a", 1)]
        terms := removed.added [("a", 1)] }
    have run := Run.step (Run.step (Run.step (Run.step acquired (Step.remove (acquireOne fresh) ["a"]))
      (Step.add removed [("a", 1)])) (Step.acquire again "r")) (Step.release (acquireOne again) ("a", 0) (by decide))
    exact ⟨_, run, by decide, by decide, drifted _ (by decide) (by decide)⟩

end Ledger

end LLMFusion.LoadBalancer
