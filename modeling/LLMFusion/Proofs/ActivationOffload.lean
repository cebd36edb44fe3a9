import LLMFusion.ActivationOffload
import Mathlib.Tactic.Linarith

/-! An iteration of a model with offloaded activations. What is saved is described layer by layer: the groups
before the current one are copies, the current one and those that came back are tensors. A tensor comes back with
the elements of the first one of its layer with its key. -/

namespace LLMFusion.ActivationOffload
open Fallible List

variable {δ ε : Type} [DecidableEq δ]

/-! ### Windows -/

theorem windows_foldl {groups count : Nat} (two : 2 ≤ groups) (inside : count ≤ groups) :
    (range count).foldl (fun (state : List (Nat × Int) × Nat) i =>
      let window : Int := ((groups + 1) / groups * (i + 1) : Nat) - 1
      if i < (groups + 1) % groups then (state.1 ++ [(i, window + (i + 1 : Nat))], i + 1)
      else (state.1 ++ [(i, window + (state.2 : Nat))], state.2)) ([], 0) =
    ((range count).map (fun i => (i, ((i + 1 : Nat) : Int))), min count 1) := by
  have quotient : (groups + 1) / groups = 1 := Nat.div_eq_of_lt_le (by omega) (by omega)
  have rest : (groups + 1) % groups = 1 := by
    rw [Nat.add_mod_left]
    exact Nat.mod_eq_of_lt two
  induction count with
  | zero => rfl
  | succ count ih =>
    rw [range_succ, foldl_append, ih (Nat.le_of_succ_le inside)]
    simp only [foldl_cons, foldl_nil, map_append, map_singleton, quotient, rest, Nat.one_mul]
    cases count with
    | zero => rfl
    | succ count =>
      rw [if_neg (by omega)]
      simp only [Nat.min_eq_right (Nat.le_add_left 1 _)]
      simp

theorem windows_eq {groups : Nat} (two : 2 ≤ groups) :
    (windows groups (groups + 1)).1 = (range groups).map (fun i => (i, ((i + 1 : Nat) : Int))) := by
  rw [windows, windows_foldl two le_rfl]

theorem lookup_window {groups group : Nat} (two : 2 ≤ groups) (inside : group < groups) :
    lookup (windows groups (groups + 1)).1 group = .ok ((group + 1 : Nat) : Int) := by
  have distinct : (((range groups).map (fun i => (i, ((i + 1 : Nat) : Int)))).map Prod.fst).Nodup := by
    rw [map_map]
    exact (congrArg List.Nodup (map_id (range groups))).mpr nodup_range
  have found := Dictionary.get_of_mem distinct (mem_map_of_mem (mem_range.mpr inside))
  rw [lookup, windows_eq two, found]

/-! ### Groups of entries -/

/-- The tensors that leave the device. -/
def needed (layer : List (Tensor δ ε × Bool)) : List (Tensor δ ε) := (layer.filter Prod.snd).map Prod.fst

def tagged (group : Nat) (tensors : List (Tensor δ ε)) : List (Tag × Tensor δ ε) :=
  tensors.mapIdx (fun index tensor => ((group, index), tensor))

def block (group : Nat) (tensors : List (Tensor δ ε)) (state : Tensor δ ε → State δ ε) : List (Tag × State δ ε) :=
  (tagged group tensors).map (fun entry => (entry.1, state entry.2))

def copiedState (tensor : Tensor δ ε) : State δ ε := .copied (getUniqueTensorKey tensor) tensor.shape

omit [DecidableEq δ] in
theorem tagged_group {group : Nat} {tensors : List (Tensor δ ε)} {entry : Tag × Tensor δ ε} (inside : entry ∈ tagged group tensors) :
    entry.1.1 = group ∧ entry.2 ∈ tensors := by
  obtain ⟨index, bound, rfl⟩ := mem_mapIdx.mp inside
  exact ⟨rfl, getElem_mem bound⟩

omit [DecidableEq δ] in
theorem tagged_concat (group : Nat) (tensors : List (Tensor δ ε)) (tensor : Tensor δ ε) :
    tagged group (tensors ++ [tensor]) = tagged group tensors ++ [((group, tensors.length), tensor)] := by
  rw [tagged, mapIdx_concat]
  rfl

omit [DecidableEq δ] in
theorem tagged_distinct (group : Nat) (tensors : List (Tensor δ ε)) : ((tagged group tensors).map Prod.fst).Nodup := by
  have keys : (tagged group tensors).map Prod.fst = (range tensors.length).map (fun index => (group, index)) := by
    apply ext_getElem
    · simp [tagged]
    · intro index _ _
      simp [tagged]
  rw [keys]
  exact nodup_range.map (fun _ _ same => congrArg Prod.snd same)

omit [DecidableEq δ] in
theorem block_group {group : Nat} {tensors : List (Tensor δ ε)} {state : Tensor δ ε → State δ ε} {entry : Tag × State δ ε}
    (inside : entry ∈ block group tensors state) : entry.1.1 = group := by
  obtain ⟨original, member, rfl⟩ := mem_map.mp inside
  exact (tagged_group member).1

omit [DecidableEq δ] in
theorem block_keys (group : Nat) (tensors : List (Tensor δ ε)) (state : Tensor δ ε → State δ ε) :
    (block group tensors state).map Prod.fst = (tagged group tensors).map Prod.fst := by
  rw [block, map_map]
  rfl

/-! ### Pushing -/

def savedFrom (group : Nat) : Nat → List (Tensor δ ε × Bool) → List (Saved δ ε)
  | _, [] => []
  | index, (_, true) :: layer => .tag (group, index) :: savedFrom group (index + 1) layer
  | index, (tensor, false) :: layer => .tensor tensor :: savedFrom group index layer

/-- A handler in the middle of an iteration, up to the buffer, which has no other tags than the states. -/
structure At (groups : Nat) (handler : Handler δ ε) (group count offloaded : Nat) (entries : List (Tag × State δ ε))
    (mapping : List (Nat × List (Key δ × Backup δ ε))) : Prop where
  offloadGroups : handler.numOffloadGroup = groups
  layers : handler.numLayers = groups + 1
  windowMap : handler.layerWindowMap = (windows groups (groups + 1)).1
  current : handler.currentGroup = group
  counted : handler.tensorCountCurrentGroup = count
  left : handler.offloadedGroupCount = offloaded
  states : handler.tensorTagToState = entries
  copies : handler.groupOffloadMapping = mapping
  within : ∀ tag ∈ handler.tensorTagToBuf.map Prod.fst, tag ∈ entries.map Prod.fst

theorem modify_within {κ α : Type} [DecidableEq κ] {dict : List (κ × α)} {key : κ} {change : Option α → α} {other : κ}
    (member : other ∈ (Dictionary.modify key change dict).map Prod.fst) : other ∈ dict.map Prod.fst ∨ other = key := by
  rw [Dictionary.modify_keys] at member
  split at member
  · exact .inl member
  · exact (mem_append.mp member).imp_right mem_singleton.mp

variable {groups group count offloaded : Nat} {handler : Handler δ ε} {entries earlier : List (Tag × State δ ε)}
  {mapping : List (Nat × List (Key δ × Backup δ ε))}

omit [DecidableEq δ] in
theorem tensorPush_at {tensors : List (Tensor δ ε)} (other : ∀ entry ∈ earlier, entry.1.1 ≠ group)
    (holds : At groups handler group tensors.length offloaded (earlier ++ block group tensors .tensor) mapping)
    (tensor : Tensor δ ε) : ∃ next, tensorPush handler tensor true = .ok (next, .tag (group, tensors.length)) ∧
      At groups next group (tensors.length + 1) offloaded (earlier ++ block group (tensors ++ [tensor]) .tensor) mapping := by
  have absent : (group, tensors.length) ∉ (earlier ++ block group tensors State.tensor).map Prod.fst := by
    rw [map_append, mem_append, not_or]
    constructor
    · intro inside
      obtain ⟨entry, inside, same⟩ := mem_map.mp inside
      exact other entry inside (congrArg Prod.fst same)
    · intro inside
      rw [block_keys] at inside
      obtain ⟨entry, inside, same⟩ := mem_map.mp inside
      obtain ⟨index, bound, rfl⟩ := mem_mapIdx.mp inside
      have equal : index = tensors.length := congrArg Prod.snd same
      omega
  have added : Dictionary.modify (group, tensors.length) (fun _ => State.tensor tensor) (earlier ++ block group tensors .tensor) =
      earlier ++ block group (tensors ++ [tensor]) .tensor := by
    rw [Dictionary.modify_absent absent, append_assoc, block, block, tagged_concat, map_append, map_singleton]
  have missing : ¬ (Dictionary.get handler.tensorTagToState (handler.currentGroup, handler.tensorCountCurrentGroup)).isSome := by
    rw [holds.states, holds.current, holds.counted, Dictionary.get_none.mpr absent]
    exact Bool.false_ne_true
  have pushed : tensorPush handler tensor true = .ok (_, .tag (handler.currentGroup, handler.tensorCountCurrentGroup)) :=
    (if_pos rfl).trans (if_neg missing)
  rw [holds.current, holds.counted, holds.states, added] at pushed
  refine ⟨_, pushed, holds.offloadGroups, holds.layers, holds.windowMap, rfl, rfl, holds.left, rfl, holds.copies, ?_⟩
  intro tag member
  have known : tag ∈ handler.tensorTagToBuf.map Prod.fst ∨ tag = (group, tensors.length) := by
    simp only at member
    split at member
    · exact modify_within member
    · exact .inl member
  rw [← added, Dictionary.modify_absent absent, map_append, mem_append]
  exact known.imp (holds.within tag) (fun same => mem_singleton.mpr same)

omit [DecidableEq δ] in
theorem pushAll_at (tensors : List (Tensor δ ε)) (other : ∀ entry ∈ earlier, entry.1.1 ≠ group) (layer : List (Tensor δ ε × Bool))
    (holds : At groups handler group tensors.length offloaded (earlier ++ block group tensors .tensor) mapping) :
    ∃ next, pushAll handler layer = .ok (next, savedFrom group tensors.length layer) ∧
      At groups next group (tensors.length + (needed layer).length) offloaded
        (earlier ++ block group (tensors ++ needed layer) .tensor) mapping := by
  induction layer generalizing handler tensors with
  | nil =>
    refine ⟨handler, rfl, ?_⟩
    rw [needed, filter_nil, map_nil, append_nil]
    exact holds
  | cons item layer ih =>
    obtain ⟨tensor, need⟩ := item
    cases need with
    | true =>
      obtain ⟨next, pushed, holds⟩ := tensorPush_at other holds tensor
      have grown : (tensors ++ [tensor]).length = tensors.length + 1 := length_append
      rw [← grown] at holds
      obtain ⟨final, rest, holds⟩ := ih _ holds
      refine ⟨final, ?_, ?_⟩
      · rw [pushAll, pushed, ok_bind]
        simp only [rest, grown]
        rfl
      · have more : tensors ++ [tensor] ++ needed layer = tensors ++ needed ((tensor, true) :: layer) := append_assoc ..
        have size : (tensors ++ [tensor]).length + (needed layer).length =
            tensors.length + (needed ((tensor, true) :: layer)).length := by
          rw [← length_append, more, length_append]
        rw [more, size] at holds
        exact holds
    | false =>
      obtain ⟨final, rest, holds⟩ := ih _ holds
      refine ⟨final, ?_, holds⟩
      rw [pushAll, tensorPush, if_neg Bool.false_ne_true, ok_bind]
      simp only [rest]
      rfl

/-! ### Offloading -/

def firsts (tensors : List (Tensor δ ε)) (mapping : List (Key δ × Tensor δ ε)) : List (Key δ × Tensor δ ε) :=
  tensors.foldl (fun mapping tensor =>
    if (Dictionary.get mapping (getUniqueTensorKey tensor)).isSome then mapping
    else Dictionary.modify (getUniqueTensorKey tensor) (fun _ => tensor) mapping) mapping

theorem get_firsts (tensors : List (Tensor δ ε)) (mapping : List (Key δ × Tensor δ ε)) (key : Key δ) :
    Dictionary.get (firsts tensors mapping) key =
      (Dictionary.get mapping key).or (tensors.find? (fun tensor => decide (getUniqueTensorKey tensor = key))) := by
  induction tensors generalizing mapping with
  | nil => exact (Option.or_none).symm
  | cons tensor tensors ih =>
    rw [firsts, foldl_cons, ← firsts, ih, find?_cons]
    by_cases same : getUniqueTensorKey tensor = key
    · subst same
      rw [decide_eq_true rfl]
      split
      · next present =>
        obtain ⟨value, found⟩ := Option.isSome_iff_exists.mp present
        rw [found, Option.some_or, Option.some_or]
      · next missing =>
        rw [Option.not_isSome_iff_eq_none.mp missing, Dictionary.get_modify, if_pos rfl, Option.some_or, Option.none_or]
    · rw [decide_eq_false same]
      split
      · rfl
      · rw [Dictionary.get_modify, if_neg (fun equal => same equal.symm)]

theorem collectGroup_other {others : List (Tag × State δ ε)} (other : ∀ entry ∈ others, entry.1.1 ≠ group)
    (entries : List (Tag × State δ ε)) (mapping : List (Key δ × Tensor δ ε)) :
    collectGroup group (others ++ entries) mapping =
      (collectGroup group entries mapping).map (fun result => (others ++ result.1, result.2)) := by
  induction others with
  | nil =>
    rw [nil_append]
    cases collectGroup group entries mapping <;> rfl
  | cons entry others ih =>
    obtain ⟨first, rest⟩ := forall_mem_cons.mp other
    rw [cons_append, collectGroup, if_neg first, ih rest]
    cases collectGroup group entries mapping <;> rfl

theorem collectGroup_tagged {items : List (Tag × Tensor δ ε)} (same : ∀ item ∈ items, item.1.1 = group)
    (mapping : List (Key δ × Tensor δ ε)) :
    collectGroup group (items.map (fun item => (item.1, State.tensor item.2))) mapping =
      .ok (items.map (fun item => (item.1, copiedState item.2)), firsts (items.map Prod.snd) mapping) := by
  induction items generalizing mapping with
  | nil => rfl
  | cons item items ih =>
    obtain ⟨first, rest⟩ := forall_mem_cons.mp same
    rw [map_cons, collectGroup, if_pos first]
    simp only [ih rest, ok_bind]
    rfl

omit [DecidableEq δ] in
theorem tagged_tensors (group : Nat) (tensors : List (Tensor δ ε)) : (tagged group tensors).map Prod.snd = tensors := by
  apply ext_getElem
  · simp [tagged]
  · intro index _ _
    simp [tagged]

def backups (tensors : List (Tensor δ ε)) : List (Key δ × Backup δ ε) :=
  (firsts tensors []).map (fun entry => (entry.1, offload entry.2))

theorem bulkOffloadGroup_at {tensors : List (Tensor δ ε)} {current : Nat} (other : ∀ entry ∈ earlier, entry.1.1 ≠ group)
    (absent : group ∉ mapping.map Prod.fst)
    (holds : At groups handler current count offloaded (earlier ++ block group tensors .tensor) mapping) :
    ∃ next, bulkOffloadGroup handler group = .ok next ∧
      At groups next current count offloaded (earlier ++ block group tensors copiedState) (mapping ++ [(group, backups tensors)]) := by
  have collected : collectGroup group handler.tensorTagToState [] =
      .ok (earlier ++ block group tensors copiedState, firsts tensors []) := by
    rw [holds.states, collectGroup_other other, block, collectGroup_tagged (fun item inside => (tagged_group inside).1), tagged_tensors]
    rfl
  have copied : bulkOffloadGroup handler group = .ok { handler with
      tensorTagToState := earlier ++ block group tensors copiedState
      groupOffloadMapping := Dictionary.modify group (fun _ => backups tensors) handler.groupOffloadMapping } := by
    rw [bulkOffloadGroup, collected, ok_bind]
    rfl
  refine ⟨_, copied, holds.offloadGroups, holds.layers, holds.windowMap, holds.current, holds.counted, holds.left, rfl, ?_, ?_⟩
  · rw [holds.copies]
    exact Dictionary.modify_absent absent _
  · have keys : (earlier ++ block group tensors copiedState).map Prod.fst = (earlier ++ block group tensors .tensor).map Prod.fst := by
      rw [map_append, map_append, block_keys, block_keys]
    rw [keys]
    exact holds.within

/-! ### The forward pass -/

section Forward
variable (tensors : Nat → List (Tensor δ ε))

def stored (count : Nat) : List (Tag × State δ ε) :=
  (List.range count).flatMap (fun group => block group (tensors group) copiedState)

def copiesOf (count : Nat) : List (Nat × List (Key δ × Backup δ ε)) :=
  (List.range count).map (fun group => (group, backups (tensors group)))

omit [DecidableEq δ] in
theorem stored_succ (count : Nat) :
    stored tensors (count + 1) = stored tensors count ++ block count (tensors count) copiedState := by
  rw [stored, range_succ, flatMap_append, flatMap_singleton]
  rfl

theorem copiesOf_succ (count : Nat) :
    copiesOf tensors (count + 1) = copiesOf tensors count ++ [(count, backups (tensors count))] := by
  rw [copiesOf, range_succ, map_append]
  rfl

omit [DecidableEq δ] in
theorem stored_other {count : Nat} : ∀ entry ∈ stored tensors count, entry.1.1 ≠ count := by
  intro entry inside
  obtain ⟨group, below, inside⟩ := mem_flatMap.mp inside
  rw [block_group inside]
  exact Nat.ne_of_lt (mem_range.mp below)

theorem copiesOf_absent {count : Nat} : count ∉ (copiesOf tensors count).map Prod.fst := by
  rw [copiesOf, map_map]
  intro inside
  obtain ⟨group, below, same⟩ := mem_map.mp inside
  exact Nat.ne_of_lt (mem_range.mp below) same

omit [DecidableEq δ] in
theorem At.free {current : Nat} (holds : At groups handler current count offloaded entries mapping) (freed : Nat) :
    At groups { handler with tensorTagToBuf := handler.tensorTagToBuf.map (fun entry =>
      if entry.1.1 = freed then (entry.1, none) else entry) } current count offloaded entries mapping := by
  refine ⟨holds.offloadGroups, holds.layers, holds.windowMap, holds.current, holds.counted, holds.left, holds.states,
    holds.copies, ?_⟩
  intro tag member
  simp only [map_map] at member
  obtain ⟨entry, inside, rfl⟩ := mem_map.mp member
  have same : (if entry.1.1 = freed then (entry.1, none) else entry).1 = entry.1 := by
    split <;> rfl
  rw [Function.comp_apply, same]
  exact holds.within _ (mem_map_of_mem inside)

omit [DecidableEq δ] in
theorem lookup_at (two : 2 ≤ groups) (inside : offloaded < groups)
    (holds : At groups handler group count offloaded entries mapping) :
    lookup handler.layerWindowMap handler.offloadedGroupCount = .ok ((offloaded + 1 : Nat) : Int) := by
  rw [holds.windowMap, holds.left]
  exact lookup_window two inside

theorem commit_of_synchronized {next : Handler δ ε} (done : synchronizeOnGroupCommitForward handler group = .ok next)
    (before : handler.currentGroup = group) (holds : At groups next group count offloaded entries mapping) :
    ∃ final, onGroupCommitForward handler = .ok final ∧ At groups final (group + 1) 0 offloaded entries mapping := by
  refine ⟨{ next with currentGroup := next.currentGroup + 1, tensorCountCurrentGroup := 0 }, ?_, ?_⟩
  · rw [onGroupCommitForward, before, done, ok_bind]
    rfl
  · exact ⟨holds.offloadGroups, holds.layers, holds.windowMap, congrArg Nat.succ holds.current, rfl, holds.left, holds.states,
      holds.copies, holds.within⟩

omit [DecidableEq δ] in
theorem At.leave (holds : At groups handler group count offloaded entries mapping) :
    At groups { handler with offloadedGroupCount := handler.offloadedGroupCount + 1 } group count (offloaded + 1) entries mapping :=
  ⟨holds.offloadGroups, holds.layers, holds.windowMap, holds.current, holds.counted, congrArg Nat.succ holds.left, holds.states,
    holds.copies, holds.within⟩

theorem onGroupCommitForward_at (two : 2 ≤ groups) (inside : group < groups)
    (holds : At groups handler group count (group - 1) (stored tensors group ++ block group (tensors group) .tensor)
      (copiesOf tensors group)) : ∃ next, onGroupCommitForward handler = .ok next ∧
      At groups next (group + 1) 0 group (stored tensors (group + 1)) (copiesOf tensors (group + 1)) := by
  rw [stored_succ, copiesOf_succ]
  cases group with
  | zero =>
    obtain ⟨next, offloads, after⟩ := bulkOffloadGroup_at (stored_other tensors) (copiesOf_absent tensors) holds
    have window := lookup_at two (by omega) after
    refine commit_of_synchronized ?_ holds.current after
    rw [synchronizeOnGroupCommitForward, if_pos rfl, offloads]
    simp only [ok_bind, window]
    rw [if_neg (by omega)]
    rfl
  | succ group =>
    have window := lookup_at two (by omega) holds
    obtain ⟨next, offloads, after⟩ :=
      bulkOffloadGroup_at (stored_other tensors) (copiesOf_absent tensors) (holds.free handler.offloadedGroupCount)
    refine commit_of_synchronized ?_ holds.current after.leave
    have more : group + 1 < handler.numOffloadGroup := by
      rw [holds.offloadGroups]
      exact inside
    have next_group : handler.offloadedGroupCount + 1 = group + 1 := congrArg Nat.succ holds.left
    rw [synchronizeOnGroupCommitForward, if_neg (Nat.succ_ne_zero group)]
    simp only [ok_bind, window, if_pos more, next_group, offloads, Nat.add_sub_cancel, if_true]
    rfl

theorem onGroupCommitForward_last (two : 2 ≤ groups)
    (holds : At groups handler groups count (groups - 1) entries mapping) :
    ∃ next, onGroupCommitForward handler = .ok next ∧ At groups next (groups + 1) 0 groups entries mapping := by
  have window := lookup_at two (by omega) holds
  have size : groups - 1 + 1 = groups := by omega
  have leaves := (holds.free handler.offloadedGroupCount).leave
  rw [size] at window leaves
  refine commit_of_synchronized ?_ holds.current leaves
  have full : ¬ handler.offloadedGroupCount + 1 < handler.numOffloadGroup := by
    rw [holds.left, holds.offloadGroups, size]
    exact Nat.lt_irrefl groups
  rw [synchronizeOnGroupCommitForward, if_neg (by omega)]
  simp only [ok_bind, window, if_neg full, if_true]
  rfl

omit [DecidableEq δ] in
def savedLayers (group : Nat) : List (List (Tensor δ ε × Bool)) → List (List (Saved δ ε))
  | [] => []
  | layer :: layers => savedFrom group 0 layer :: savedLayers (group + 1) layers

def Holds (group : Nat) (layers : List (List (Tensor δ ε × Bool))) : Prop :=
  ∀ index layer, layers[index]? = some layer → needed layer = tensors (group + index)

omit [DecidableEq δ] in
theorem Holds.tail {layer : List (Tensor δ ε × Bool)} {layers : List (List (Tensor δ ε × Bool))}
    (holds : Holds tensors group (layer :: layers)) : Holds tensors (group + 1) layers := by
  intro index other found
  rw [holds (index + 1) other found]
  congr 1
  omega

/-- The forward pass: in the end the last layer has its tensors and every other group has left. -/
theorem forward_at (group : Nat) (two : 2 ≤ groups) {layers : List (List (Tensor δ ε × Bool))} (rest : group + layers.length = groups + 1)
    (inside : group ≤ groups) (these : Holds tensors group layers)
    (holds : At groups handler group 0 (group - 1) (stored tensors group) (copiesOf tensors group)) :
    ∃ final, forward handler layers = .ok (final, savedLayers group layers) ∧
      At groups final (groups + 1) 0 groups (stored tensors groups ++ block groups (tensors groups) .tensor)
        (copiesOf tensors groups) := by
  induction layers generalizing group handler with
  | nil =>
    rw [length_nil] at rest
    omega
  | cons layer layers ih =>
    rw [length_cons] at rest
    have first : needed layer = tensors group := these 0 layer rfl
    have empty : stored tensors group = stored tensors group ++ block group [] State.tensor := (append_nil _).symm
    rw [empty] at holds
    obtain ⟨pushed, pushes, after⟩ := pushAll_at [] (stored_other tensors) layer holds
    rw [nil_append, first] at after
    rw [length_nil] at pushes
    rcases Nat.lt_or_ge group groups with more | last
    · obtain ⟨next, commits, after⟩ := onGroupCommitForward_at tensors two more after
      obtain ⟨final, passes, after⟩ := ih _ (by omega) more these.tail after
      refine ⟨final, ?_, after⟩
      simp only [forward, pushes, ok_bind, commits, passes]
      rfl
    · have same : group = groups := Nat.le_antisymm inside last
      subst same
      obtain ⟨next, commits, after⟩ := onGroupCommitForward_last two after
      have none_left : layers = [] := length_eq_zero_iff.mp (by omega)
      subst none_left
      refine ⟨next, ?_, after⟩
      simp only [forward, pushes, ok_bind, commits]
      rfl

end Forward

end LLMFusion.ActivationOffload
