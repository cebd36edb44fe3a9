import LLMFusion.NixlTopology

/-! The topology is a chain exactly when there are two rollout workers or more: with one, the slice for the agents behind it
starts at the first trainer worker. -/

namespace LLMFusion.NixlTopology
open Fallible List

variable {Metadata Name : Type}

/-! ### The lists -/

section Lists
variable (trainers : List Metadata) (first : Metadata) (rest : List Metadata)

theorem bound_rollouts : Indexing.bound (trainers ++ first :: rest).length (-((first :: rest).length : Nat)) =
    trainers.length := by
  have negative : -(((first :: rest).length : Nat) : Int) < 0 := by
    rw [length_cons]
    omega
  rw [Indexing.bound, if_pos negative, length_append]
  omega

theorem bound_last : Indexing.bound (trainers ++ first :: rest).length (-1) = trainers.length + rest.length := by
  rw [Indexing.bound, if_pos (by decide), length_append, length_cons]
  omega

theorem item_rollout : item (trainers ++ first :: rest) (-((first :: rest).length : Nat)) = .ok first := by
  have place : Indexing.position (trainers ++ first :: rest).length (-((first :: rest).length : Nat)) =
      some trainers.length := by
    have size : (first :: rest).length = rest.length + 1 := length_cons
    rw [Indexing.position, length_append, size, if_neg (by omega), if_pos (by omega)]
    congr 1
    omega
  have found : (trainers ++ first :: rest)[trainers.length]? = some first := by
    rw [getElem?_append_right (Nat.le_refl _), Nat.sub_self]
    rfl
  simp only [item, Indexing.getItem, place, Option.bind_some, found]

theorem item_master (master : Metadata) (others : List Metadata) : item (master :: others) 0 = .ok master := by
  have place : Indexing.position (master :: others).length 0 = some 0 :=
    Indexing.position_of_nat (Nat.zero_lt_succ _)
  simp only [item, Indexing.getItem, place, Option.bind_some, getElem?_cons_zero]

theorem between_rollouts : Indexing.between (trainers ++ first :: rest) (-((first :: rest).length : Nat)) (-1) =
    (first :: rest).take rest.length := by
  rw [Indexing.between, bound_rollouts, bound_last, take_length_add_append, drop_left]

theorem fromIndex_rollouts (behind : rest ≠ []) :
    Indexing.fromIndex (trainers ++ first :: rest) (-((first :: rest).length : Nat) + 1) = rest := by
  have some := length_pos_iff.mpr behind
  have size : (first :: rest).length = rest.length + 1 := length_cons
  have start : (((trainers ++ first :: rest).length : Int) + (-((first :: rest).length : Nat) + 1)).toNat =
      trainers.length + 1 := by
    rw [length_append, size]
    omega
  rw [Indexing.fromIndex, if_pos (by rw [size]; omega), start, drop_append,
    drop_eq_nil_of_le (Nat.le_succ _),
    Nat.add_sub_cancel_left]
  rfl

theorem fromIndex_single : Indexing.fromIndex (trainers ++ [first]) (-(([first] : List Metadata).length : Nat) + 1) =
    trainers ++ [first] := rfl

end Lists

/-! ### The arguments of the workers -/

section Arguments
variable (master : Metadata) (others : List Metadata) (first : Metadata) (rest : List Metadata)

def trainerKwargs : Kwargs Metadata where
  method := List.replicate (master :: others).length "init_process_group"
  rank := 0 :: List.replicate others.length (-1)
  worldSize := List.replicate (master :: others).length ((first :: rest).length + 1)
  prevAgentMetadata := List.replicate (master :: others).length none
  nextAgentMetadata := some first :: List.replicate others.length none

def rolloutKwargs : Kwargs Metadata where
  method := List.replicate (first :: rest).length "init_process_group"
  rank := (List.range' 1 (first :: rest).length).map Int.ofNat
  worldSize := List.replicate (first :: rest).length ((first :: rest).length + 1)
  prevAgentMetadata := (master :: (first :: rest).take rest.length).map some
  nextAgentMetadata := (Indexing.fromIndex (master :: others ++ first :: rest)
    (-((first :: rest).length : Nat) + 1)).map some ++ [none]

theorem buildTopology_eq : buildTopology (master :: others).length (first :: rest).length
    (master :: others ++ first :: rest) =
    .ok (trainerKwargs master others first rest, rolloutKwargs master others first rest) := by
  rw [buildTopology, item_rollout, ok_bind, cons_append, item_master, ok_bind,
    ← cons_append,
    between_rollouts]
  rfl

theorem trainerKwargs_sized : (trainerKwargs master others first rest).Sized (master :: others).length := by
  refine ⟨length_replicate, ?_, length_replicate, length_replicate, ?_⟩
  · exact congrArg Nat.succ length_replicate
  · exact congrArg Nat.succ length_replicate

theorem rolloutKwargs_sized : (rolloutKwargs master others first rest).Sized (first :: rest).length ↔ rest ≠ [] := by
  constructor
  · rintro ⟨_, _, _, _, next⟩ none
    subst none
    rw [rolloutKwargs, fromIndex_single, length_append, length_map, length_append,
      length_cons] at next
    exact absurd next (by simp)
  · intro behind
    refine ⟨length_replicate, ?_, length_replicate, ?_, ?_⟩
    · exact (length_map _).trans length_range'
    · rw [rolloutKwargs, length_map, length_cons, length_take, length_cons,
        Nat.min_eq_left (Nat.le_succ _)]
    · rw [rolloutKwargs, fromIndex_rollouts _ _ _ behind, length_append, length_map]
      rfl

end Arguments

/-! ### The agents -/

section Chain
variable (addRemoteAgent : Metadata → Name)

/-- The first trainer worker and the rollout workers, in order. -/
def members (trainers rollouts : List Metadata) : List Metadata := trainers.take 1 ++ rollouts

/-- The agent of a member knows the one before it and the one after it. -/
def chainAgent (members : List Metadata) (place : Nat) : Agent Name where
  rank := place
  worldSize := members.length
  prevAgent := if place = 0 then none else members[place - 1]?.map addRemoteAgent
  nextAgent := members[place + 1]?.map addRemoteAgent

/-- The agents of the members form a chain; the other trainer workers have no part in it. -/
structure Chain (trainers rollouts : List Metadata) (group : List (Agent Name) × List (Agent Name)) : Prop where
  chained : group.1.take 1 ++ group.2 =
    (List.range (members trainers rollouts).length).map (chainAgent addRemoteAgent (members trainers rollouts))
  apart : group.1.drop 1 =
    List.replicate (trainers.length - 1) ⟨-1, (members trainers rollouts).length, none, none⟩

def callAgent (call : (Int × Int) × Option Metadata × Option Metadata) : Agent Name :=
  ⟨call.1.1, call.1.2, call.2.1.map addRemoteAgent, call.2.2.map addRemoteAgent⟩

theorem executeCheckpointEngine_ok {kwargs : Kwargs Metadata}
    (accepted : ∀ call ∈ kwargs.calls, allowed call.1.1 call.1.2 call.2.1 call.2.2 = true) :
    executeCheckpointEngine addRemoteAgent kwargs = .ok (kwargs.calls.map (callAgent addRemoteAgent)) :=
  mapM_map _ (fun call member => if_pos (accepted call member))

variable (master : Metadata) (others : List Metadata) (first : Metadata) (rest : List Metadata)

theorem trainer_calls : (trainerKwargs master others first rest).calls =
    ((0, ((first :: rest).length + 1 : Int)), none, some first) ::
      replicate others.length ((-1, ((first :: rest).length + 1 : Int)), none, none) := by
  simp only [Kwargs.calls, trainerKwargs, length_cons, replicate_succ, zip_cons_cons,
    zip_replicate,
    Nat.min_self]

theorem trainer_allowed : ∀ call ∈ (trainerKwargs master others first rest).calls,
    allowed call.1.1 call.1.2 call.2.1 call.2.2 = true := by
  intro call member
  rw [trainer_calls] at member
  rcases mem_cons.mp member with rfl | other
  · rfl
  · rw [eq_of_mem_replicate other]
    rfl

def rolloutCall (place : Nat) : (Int × Int) × Option Metadata × Option Metadata :=
  ((place + 1, ((first :: rest).length + 1 : Int)), (master :: first :: rest)[place]?,
    (master :: first :: rest)[place + 2]?)

theorem rollout_calls (behind : rest ≠ []) : (rolloutKwargs master others first rest).calls =
    (range (first :: rest).length).map (rolloutCall master first rest) := by
  have sized := (rolloutKwargs_sized master others first rest).mpr behind
  have size : (first :: rest).length = rest.length + 1 := length_cons
  apply ext_getElem?
  intro place
  by_cases inside : place < (first :: rest).length
  · have within : place < (master :: first :: rest).length := Nat.lt_succ_of_lt inside
    have rank : (rolloutKwargs master others first rest).rank[place]? = some (place + 1 : Int) := by
      rw [rolloutKwargs, getElem?_map, getElem?_range' inside, Option.map_some, Nat.one_mul,
        Nat.add_comm]
      rfl
    have world : (rolloutKwargs master others first rest).worldSize[place]? =
        some ((first :: rest).length + 1 : Int) := by
      rw [rolloutKwargs, getElem?_replicate, if_pos inside]
    have prev : (rolloutKwargs master others first rest).prevAgentMetadata[place]? =
        some (master :: first :: rest)[place]? := by
      rw [rolloutKwargs, ← take_succ_cons, ← size, getElem?_map, getElem?_take_of_lt inside,
        getElem?_eq_getElem within]
      rfl
    have next : (rolloutKwargs master others first rest).nextAgentMetadata[place]? =
        some (master :: first :: rest)[place + 2]? := by
      rw [rolloutKwargs, fromIndex_rollouts _ _ _ behind, getElem?_cons_succ, getElem?_cons_succ]
      by_cases last : place < rest.length
      · rw [getElem?_append_left (by rw [length_map]; exact last), getElem?_map,
        getElem?_eq_getElem last]
        rfl
      · have equal : place = rest.length := by omega
        rw [getElem?_append_right (by rw [length_map]; omega), length_map, equal, Nat.sub_self,
          getElem?_eq_none (Nat.le_refl _)]
        rfl
    rw [getElem?_map, getElem?_range inside, Option.map_some]
    exact getElem?_zip_eq_some.mpr ⟨getElem?_zip_eq_some.mpr ⟨rank, world⟩,
      getElem?_zip_eq_some.mpr ⟨prev, next⟩⟩
  · have short : (rolloutKwargs master others first rest).calls.length ≤ place := by
      rw [Kwargs.calls, length_zip, length_zip, sized.2.1, sized.2.2.1]
      omega
    rw [getElem?_eq_none short, getElem?_eq_none]
    rw [length_map, length_range]
    omega

theorem allowed_inner {rank worldSize : Int} (positive : 0 < rank) (inside : rank < worldSize - 1)
    (prev next : Option Metadata) : allowed rank worldSize prev next = (prev.isSome && next.isSome) := by
  rw [allowed, if_neg (by omega), if_neg (by omega), if_pos inside]

theorem allowed_last {rank worldSize : Int} (positive : 0 < rank) (last : rank = worldSize - 1)
    (prev next : Option Metadata) : allowed rank worldSize prev next = (prev.isSome && next.isNone) := by
  rw [allowed, if_neg (by omega), if_neg (by omega), if_neg (by omega), if_pos last]

theorem rollout_allowed (place : Nat) (inside : place < (first :: rest).length) :
    allowed (rolloutCall master first rest place).1.1 (rolloutCall master first rest place).1.2
      (rolloutCall master first rest place).2.1 (rolloutCall master first rest place).2.2 = true := by
  have size : (first :: rest).length = rest.length + 1 := length_cons
  have prev : (master :: first :: rest)[place]?.isSome = true := by
    rw [getElem?_eq_getElem (Nat.lt_succ_of_lt inside)]
    rfl
  change allowed (place + 1 : Int) ((first :: rest).length + 1 : Int)
    (master :: first :: rest)[place]? rest[place]? = true
  rw [size]
  by_cases last : place < rest.length
  · rw [allowed_inner (by omega) (by omega), prev, getElem?_eq_getElem last]
    rfl
  · rw [allowed_last (by omega) (by omega), prev, getElem?_eq_none (Nat.le_of_not_lt last)]
    rfl

theorem rollout_agents (behind : rest ≠ []) :
    executeCheckpointEngine addRemoteAgent (rolloutKwargs master others first rest) =
    .ok ((range (first :: rest).length).map
        (fun place => chainAgent addRemoteAgent (master :: first :: rest) (place + 1))) := by
  have accepted : ∀ call ∈ (rolloutKwargs master others first rest).calls,
      allowed call.1.1 call.1.2 call.2.1 call.2.2 = true := by
    intro call member
    rw [rollout_calls master others first rest behind] at member
    obtain ⟨place, inside, rfl⟩ := mem_map.mp member
    exact rollout_allowed master first rest place (mem_range.mp inside)
  rw [executeCheckpointEngine_ok addRemoteAgent accepted, rollout_calls master others first rest behind,
    map_map]
  rfl

theorem buildProcessGroup_ok {trainerAgents rolloutAgents : List (Agent Name)}
    (trainer : executeCheckpointEngine addRemoteAgent (trainerKwargs master others first rest) = .ok trainerAgents)
    (rollout : executeCheckpointEngine addRemoteAgent (rolloutKwargs master others first rest) = .ok rolloutAgents)
    (sized : (rolloutKwargs master others first rest).Sized (first :: rest).length) :
    buildProcessGroup addRemoteAgent (master :: others).length (first :: rest).length
      (master :: others ++ first :: rest) = .ok (trainerAgents, rolloutAgents) := by
  rw [buildProcessGroup, buildTopology_eq, ok_bind,
    if_neg (not_not_intro (trainerKwargs_sized master others first rest)),
    if_neg (not_not_intro sized), trainer, rollout]
  rfl

theorem buildProcessGroup_chain (behind : rest ≠ []) :
    ∃ group, buildProcessGroup addRemoteAgent (master :: others).length (first :: rest).length
      (master :: others ++ first :: rest) =
      .ok group ∧ Chain addRemoteAgent (master :: others) (first :: rest) group := by
  have trainer := executeCheckpointEngine_ok addRemoteAgent (trainer_allowed master others first rest)
  rw [trainer_calls, map_cons, map_replicate] at trainer
  have rollout := rollout_agents addRemoteAgent master others first rest behind
  have sized := (rolloutKwargs_sized master others first rest).mpr behind
  refine ⟨_, buildProcessGroup_ok addRemoteAgent master others first rest trainer rollout sized, ?_, rfl⟩
  have same : members (master :: others) (first :: rest) = master :: first :: rest := rfl
  have count : (master :: first :: rest).length = (first :: rest).length + 1 := length_cons
  rw [same, count, range_succ_eq_map, map_cons, map_map]
  rfl

end Chain

/-- The workers accept the topology and form a chain exactly when there is more than one rollout worker. -/
theorem buildTopology_iff (addRemoteAgent : Metadata → Name) {trainers rollouts : List Metadata}
    (trainer : trainers ≠ [])
    (rollout : rollouts ≠ []) :
    ((∃ topology, buildTopology trainers.length rollouts.length (trainers ++ rollouts) = .ok topology ∧
        topology.1.Sized trainers.length ∧ topology.2.Sized rollouts.length) ∧
      ∃ group, buildProcessGroup addRemoteAgent trainers.length rollouts.length (trainers ++ rollouts) =
        .ok group ∧
        Chain addRemoteAgent trainers rollouts group) ↔ 2 ≤ rollouts.length := by
  obtain ⟨master, others, rfl⟩ := List.exists_cons_of_ne_nil trainer
  obtain ⟨first, rest, rfl⟩ := List.exists_cons_of_ne_nil rollout
  have size : (first :: rest).length = rest.length + 1 := List.length_cons
  have several : rest ≠ [] ↔ 2 ≤ (first :: rest).length := by
    rw [← List.length_pos_iff, size]
    omega
  rw [← several]
  constructor
  · rintro ⟨⟨topology, built, _, sized⟩, _⟩
    rw [buildTopology_eq] at built
    cases built
    exact (rolloutKwargs_sized master others first rest).mp sized
  · intro behind
    exact ⟨⟨_, buildTopology_eq master others first rest, trainerKwargs_sized master others first rest,
      (rolloutKwargs_sized master others first rest).mpr behind⟩,
      buildProcessGroup_chain addRemoteAgent master others first rest behind⟩

theorem buildTopology_pair : (∃ topology, buildTopology 2 2 (["t0", "t1"] ++ ["r0", "r1"]) = .ok topology ∧
      topology.1.Sized 2 ∧ topology.2.Sized 2) ∧
    ∃ group, buildProcessGroup String.length 2 2 (["t0", "t1"] ++ ["r0", "r1"]) = .ok group ∧
      Chain String.length ["t0", "t1"] ["r0", "r1"] group :=
  (buildTopology_iff String.length (List.cons_ne_nil "t0" ["t1"]) (List.cons_ne_nil "r0" ["r1"])).mpr
    (Nat.le_refl 2)

/-- One trainer worker and one rollout worker: the list of the next agents has three entries. -/
theorem buildTopology_single : ¬ ((∃ topology, buildTopology 1 1 (["t0"] ++ ["r0"]) = .ok topology ∧
      topology.1.Sized 1 ∧ topology.2.Sized 1) ∧
    ∃ group, buildProcessGroup String.length 1 1 (["t0"] ++ ["r0"]) = .ok group ∧
        Chain String.length ["t0"] ["r0"] group) := by
  rintro ⟨_, group, built, _⟩
  have failed : buildProcessGroup String.length 1 1 (["t0"] ++ ["r0"]) = .error .lengthMismatch := rfl
  rw [failed] at built
  cases built

end LLMFusion.NixlTopology
