import LLMFusion.Proofs.ActivationOffload

/-! The backward pass of a model with offloaded activations, and its iterations. A group comes back if the first
tensor of every key has as many elements as the others; it comes back unchanged if it has the same elements. -/

namespace LLMFusion.ActivationOffload
open List hiding mapM_map
open Fallible

variable {δ ε : Type} [DecidableEq δ] (address : Backup δ ε → Nat)

/-! ### What comes back -/

/-- The tensor that is copied for a tensor: the first one with its key. -/
def firstOf (tensors : List (Tensor δ ε)) (tensor : Tensor δ ε) : Tensor δ ε :=
  (tensors.find? (fun other => decide (getUniqueTensorKey other = getUniqueTensorKey tensor))).getD tensor

def Fits (tensors : List (Tensor δ ε)) : Prop :=
  ∀ tensor ∈ tensors, (firstOf tensors tensor).elements.length = tensor.shape.prod

def Same (tensors : List (Tensor δ ε)) : Prop :=
  ∀ tensor ∈ tensors, (firstOf tensors tensor).elements = tensor.elements

def restored (tensors : List (Tensor δ ε)) (tensor : Tensor δ ε) : Tensor δ ε :=
  if full : (firstOf tensors tensor).elements.length = tensor.shape.prod then
    { reload address (offload (firstOf tensors tensor)) with shape := tensor.shape, full := full }
  else tensor

section
variable {tensors : List (Tensor δ ε)}
include tensors

variable {tensor : Tensor δ ε}

theorem find_firstOf (inside : tensor ∈ tensors) :
    tensors.find? (fun other => decide (getUniqueTensorKey other = getUniqueTensorKey tensor)) = some (firstOf tensors tensor) := by
  have found : (tensors.find? (fun other => decide (getUniqueTensorKey other = getUniqueTensorKey tensor))).isSome :=
    find?_isSome.mpr ⟨tensor, inside, decide_eq_true rfl⟩
  obtain ⟨first, found⟩ := Option.isSome_iff_exists.mp found
  rw [firstOf, found, Option.getD_some]

theorem firstOf_mem (inside : tensor ∈ tensors) :
    firstOf tensors tensor ∈ tensors ∧ getUniqueTensorKey (firstOf tensors tensor) = getUniqueTensorKey tensor :=
  ⟨mem_of_find?_eq_some (find_firstOf inside), of_decide_eq_true (find?_some (find_firstOf inside) :)⟩

theorem firstOf_key {tensor other : Tensor δ ε} (inside : tensor ∈ tensors) (member : other ∈ tensors)
    (key : getUniqueTensorKey tensor = getUniqueTensorKey other) : firstOf tensors tensor = firstOf tensors other := by
  apply Option.some.inj
  rw [← find_firstOf inside, ← find_firstOf member, key]

theorem Same.fits (same : Same tensors) : Fits tensors := by
  intro tensor inside
  rw [same tensor inside]
  exact tensor.full

/-- The elements are those of the copy exactly when the tensors of one key have the same elements. -/
theorem same_iff : Same tensors ↔
    ∀ first ∈ tensors, ∀ second ∈ tensors, getUniqueTensorKey first = getUniqueTensorKey second → first.elements = second.elements := by
  constructor
  · intro same first inside second member key
    rw [← same first inside, ← same second member, firstOf_key inside member key]
  · intro equal tensor inside
    obtain ⟨member, key⟩ := firstOf_mem inside
    exact equal _ member tensor inside key

theorem restored_toData (full : (firstOf tensors tensor).elements.length = tensor.shape.prod) :
    (restored address tensors tensor).toData = tensor.toData ↔ (firstOf tensors tensor).elements = tensor.elements := by
  rw [restored, dif_pos full, Data.ext_iff]
  exact and_iff_right rfl

/-! ### Reloading -/

theorem lookup_backups (inside : tensor ∈ tensors) :
    lookup ((backups tensors).map (fun entry => (entry.1, reload address entry.2))) (getUniqueTensorKey tensor) =
      .ok (reload address (offload (firstOf tensors tensor))) := by
  rw [lookup, Dictionary.get_map, backups, Dictionary.get_map, get_firsts, Dictionary.get_nil, Option.none_or, find_firstOf inside]
  rfl

end

theorem recover_copied {group index : Nat} {tensors : List (Tensor δ ε)} {tensor : Tensor δ ε} (inside : tensor ∈ tensors) :
    recover ((backups tensors).map (fun entry => (entry.1, reload address entry.2))) group ((group, index), copiedState tensor) =
      if (firstOf tensors tensor).elements.length = tensor.shape.prod then
        .ok ((group, index), .tensor (restored address tensors tensor)) else .error .viewShape := by
  have found := lookup_backups address inside
  have recovered : recover ((backups tensors).map (fun entry => (entry.1, reload address entry.2))) group
      ((group, index), copiedState tensor) = ((reload address (offload (firstOf tensors tensor))).view tensor.shape >>=
        fun tensor => .ok ((group, index), .tensor tensor)) := by
    simp only [recover, copiedState, if_true, found, ok_bind]
    rfl
  rw [recovered]
  by_cases full : (firstOf tensors tensor).elements.length = tensor.shape.prod
  · have viewed : (reload address (offload (firstOf tensors tensor))).view tensor.shape = .ok (restored address tensors tensor) := by
      rw [restored, dif_pos full]
      exact dif_pos full
    rw [viewed, if_pos full, ok_bind]
  · have refused : (reload address (offload (firstOf tensors tensor))).view tensor.shape = .error .viewShape := dif_neg full
    rw [refused, if_neg full, error_bind]

variable {groups group count offloaded : Nat} {handler : Handler δ ε} {entries earlier : List (Tag × State δ ε)}
  {mapping : List (Nat × List (Key δ × Backup δ ε))} (tensors : Nat → List (Tensor δ ε))

variable {ts : List (Tensor δ ε)}

theorem mapM_recover_block (fits : Fits ts) :
    (block group ts copiedState).mapM (recover ((backups ts).map (fun entry => (entry.1, reload address entry.2))) group) =
      .ok (block group (ts.map (restored address ts)) .tensor) := by
  have shown : block group (ts.map (restored address ts)) State.tensor =
      (tagged group ts).map (fun entry => (entry.1, State.tensor (restored address ts entry.2))) := by
    apply ext_getElem
    · simp [block, tagged]
    · intro index _ _
      simp [block, tagged]
  rw [block, List.mapM_map, shown]
  apply mapM_map
  intro entry inside
  obtain ⟨same, member⟩ := tagged_group inside
  obtain ⟨⟨number, index⟩, tensor⟩ := entry
  cases same
  exact (recover_copied address member).trans (if_pos (fits tensor member))

omit [DecidableEq δ] in
theorem block_map_keys {change : Tensor δ ε → Tensor δ ε} {state : Tensor δ ε → State δ ε}
    (state' : Tensor δ ε → State δ ε) :
    (block group (ts.map change) state).map Prod.fst = (block group ts state').map Prod.fst := by
  apply ext_getElem
  · simp [block, tagged]
  · intro index _ _
    simp [block, tagged]

omit [DecidableEq δ] in
theorem block_mem {state : Tensor δ ε → State δ ε} {index : Nat} {tensor : Tensor δ ε}
    (found : ts[index]? = some tensor) : ((group, index), state tensor) ∈ block group ts state := by
  obtain ⟨bound, found⟩ := List.getElem?_eq_some_iff.mp found
  have listed : ((group, index), tensor) ∈ tagged group ts :=
    List.mem_mapIdx.mpr ⟨index, bound, congrArg (Prod.mk (group, index)) found⟩
  exact List.mem_map_of_mem (f := fun entry => (entry.1, state entry.2)) listed

theorem recover_other {reloaded : List (Key δ × Tensor δ ε)} {entries : List (Tag × State δ ε)}
    (other : ∀ entry ∈ entries, entry.1.1 ≠ group ∨ ∃ tensor, entry.2 = .tensor tensor) :
    entries.mapM (recover reloaded group) = .ok entries := by
  have each : ∀ entry ∈ entries, recover reloaded group entry = .ok (id entry) := by
    intro entry inside
    rw [recover]
    rcases other entry inside with different | ⟨tensor, shown⟩
    · split
      · rfl
      · rw [if_neg different]
        rfl
    · rw [shown]
      rfl
  have kept := mapM_map id each
  rwa [map_id] at kept

theorem copiesOf_distinct (count : Nat) : ((copiesOf tensors count).map Prod.fst).Nodup := by
  have keys : (copiesOf tensors count).map Prod.fst = range count := by
    rw [copiesOf, map_map]
    exact map_id _
  rw [keys]
  exact nodup_range

theorem lookup_copiesOf (count : Nat) : lookup (copiesOf tensors (count + 1)) count = .ok (backups (tensors count)) := by
  have member : (count, backups (tensors count)) ∈ copiesOf tensors (count + 1) :=
    mem_map_of_mem (mem_range.mpr (Nat.lt_succ_self count))
  rw [lookup, Dictionary.get_of_mem (copiesOf_distinct tensors _) member]

theorem erase_copiesOf (count : Nat) : Dictionary.erase (copiesOf tensors (count + 1)) [count] = copiesOf tensors count := by
  have others : Dictionary.erase (copiesOf tensors count) [count] = copiesOf tensors count := by
    apply Dictionary.erase_absent
    intro entry inside same
    exact copiesOf_absent tensors (mem_singleton.mp same ▸ mem_map_of_mem (f := Prod.fst) inside)
  rw [copiesOf_succ, Dictionary.erase_append, others, Dictionary.erase_all, append_nil]
  intro entry inside
  rw [mem_singleton.mp inside]
  exact mem_singleton_self count

omit [DecidableEq δ] in
theorem stored_states {count : Nat} : ∀ entry ∈ stored tensors count, entry.1.1 < count := by
  intro entry inside
  obtain ⟨group, below, inside⟩ := mem_flatMap.mp inside
  rw [block_group inside]
  exact mem_range.mp below

variable {later : List (Tensor δ ε)}

theorem bulkReloadGroup_at {current : Nat} (inside : group < groups)
    (holds : At groups handler current count offloaded (stored tensors (group + 1) ++ block current later .tensor)
      (copiesOf tensors (group + 1))) :
    Yields (fun _ => ¬ Fits (tensors group)) (fun next => Fits (tensors group) ∧ At groups next current count offloaded
        (stored tensors group ++ block group ((tensors group).map (restored address (tensors group))) .tensor ++
          block current later .tensor) (copiesOf tensors group)) (bulkReloadGroup address handler group) := by
  have known : lookup handler.groupOffloadMapping group = .ok (backups (tensors group)) := by
    rw [holds.copies, lookup_copiesOf]
  have before : (stored tensors group).mapM (recover ((backups (tensors group)).map (fun entry => (entry.1, reload address entry.2))) group) =
      .ok (stored tensors group) :=
    recover_other (fun entry member => .inl (stored_other tensors entry member))
  have after : (block current later State.tensor).mapM
      (recover ((backups (tensors group)).map (fun entry => (entry.1, reload address entry.2))) group) =
        .ok (block current later .tensor) := by
    apply recover_other
    intro entry member
    obtain ⟨original, _, rfl⟩ := mem_map.mp member
    exact .inr ⟨original.2, rfl⟩
  have allowed : ¬ ¬ group < handler.numOffloadGroup := by
    rw [holds.offloadGroups]
    exact not_not_intro inside
  have unfolded : bulkReloadGroup address handler group = (handler.tensorTagToState.mapM (recover
      ((backups (tensors group)).map (fun entry => (entry.1, reload address entry.2))) group) >>= fun states =>
        .ok { handler with
          tensorTagToState := states, groupOffloadMapping := Dictionary.erase handler.groupOffloadMapping [group] }) := by
    rw [bulkReloadGroup, if_neg allowed]
    simp only [ok_bind, known]
    rfl
  rw [unfolded]
  by_cases fits : Fits (tensors group)
  · have loop : handler.tensorTagToState.mapM (recover
        ((backups (tensors group)).map (fun entry => (entry.1, reload address entry.2))) group) =
        .ok (stored tensors group ++ block group ((tensors group).map (restored address (tensors group))) .tensor ++
          block current later .tensor) := by
      rw [holds.states, stored_succ, mapM_append, mapM_append, before, mapM_recover_block address fits, after]
      rfl
    rw [loop, ok_bind]
    refine ⟨fits, holds.offloadGroups, holds.layers, holds.windowMap, holds.current, holds.counted, holds.left, rfl, ?_, ?_⟩
    · rw [holds.copies]
      exact erase_copiesOf tensors group
    · intro tag member
      have known := holds.within tag member
      rw [stored_succ, map_append, map_append] at known
      rw [map_append, map_append, block_map_keys copiedState]
      exact known
  · cases loop : handler.tensorTagToState.mapM (recover
        ((backups (tensors group)).map (fun entry => (entry.1, reload address entry.2))) group) with
    | error failure => exact fits
    | ok states =>
      -- the entry of a tensor that does not fit cannot have been recovered
      refine (fits ?_).elim
      intro tensor member
      obtain ⟨index, bound, found⟩ := mem_iff_getElem.mp member
      have listed : ((group, index), copiedState tensor) ∈ handler.tensorTagToState := by
        rw [holds.states, stored_succ]
        exact mem_append_left _ (mem_append_right _ (block_mem (found ▸ List.getElem?_eq_getElem bound)))
      obtain ⟨state, _, recovered⟩ := forall₂_left (mapM_succeeded loop) listed
      rw [recover_copied address member] at recovered
      by_contra misfit
      rw [if_neg misfit] at recovered
      cases recovered

omit [DecidableEq δ] in
theorem At.decrement (holds : At groups handler (group + 1) count offloaded entries mapping) :
    At groups { handler with currentGroup := group } group count offloaded entries mapping :=
  ⟨holds.offloadGroups, holds.layers, holds.windowMap, rfl, holds.counted, holds.left, holds.states, holds.copies, holds.within⟩

theorem onGroupCommitBackward_of {window : Int} (current : handler.currentGroup = group + 1)
    (found : lastWindow { handler with currentGroup := group } = .ok window) :
    onGroupCommitBackward address handler =
      ((if window = group then bulkReloadGroup address { handler with currentGroup := group } (handler.offloadedGroupCount - 1) >>=
          fun next => .ok { next with
            offloadedGroupCount := next.offloadedGroupCount - (if 1 < next.offloadedGroupCount then 1 else 0) }
        else .ok { handler with currentGroup := group }) >>=
      fun next => .ok (if next.currentGroup = 0 then { next with offloadedGroupCount := 0 } else next)) := by
  rw [onGroupCommitBackward, if_neg (by omega)]
  simp only [current, Nat.add_sub_cancel, found, ok_bind]
  by_cases here : window = group
  · rw [if_pos here, if_pos here, bind_assoc]
    rfl
  · rw [if_neg here, if_neg here]
    rfl

theorem onGroupCommitBackward_at (two : 2 ≤ groups) (inside : group < groups)
    (holds : At groups handler (group + 2) 0 (group + 1) (stored tensors (group + 1) ++ block (group + 1) later .tensor)
      (copiesOf tensors (group + 1))) :
    Yields (fun _ => ¬ Fits (tensors group)) (fun next => Fits (tensors group) ∧ At groups next (group + 1) 0 (max group 1)
        (stored tensors group ++ block group ((tensors group).map (restored address (tensors group))) .tensor ++
          block (group + 1) later .tensor) (copiesOf tensors group)) (onGroupCommitBackward address handler) := by
  have window : lastWindow { handler with currentGroup := group + 1 } = .ok ((group + 1 : Nat) : Int) := by
    simp only [lastWindow, holds.left, holds.windowMap]
    exact lookup_window two inside
  have last : handler.offloadedGroupCount - 1 = group := congrArg Nat.pred holds.left
  rw [onGroupCommitBackward_of address holds.current window, if_pos rfl, last, bind_assoc]
  refine (bulkReloadGroup_at address tensors inside holds.decrement).bind ?_
  intro next done
  obtain ⟨fits, after⟩ := done
  have another : ¬ next.currentGroup = 0 := by
    rw [after.current]
    exact Nat.succ_ne_zero group
  rw [ok_bind, if_neg another]
  refine ⟨fits, after.offloadGroups, after.layers, after.windowMap, after.current, after.counted, ?_, after.states, after.copies,
    after.within⟩
  simp only [after.left]
  split <;> omega

theorem onGroupCommitBackward_first (two : 2 ≤ groups) (holds : At groups handler 1 0 1 entries mapping) :
    ∃ next, onGroupCommitBackward address handler = .ok next ∧ At groups next 0 0 0 entries mapping := by
  have window : lastWindow { handler with currentGroup := 0 } = .ok ((0 + 1 : Nat) : Int) := by
    simp only [lastWindow, holds.left, holds.windowMap]
    exact lookup_window two (by omega)
  refine ⟨{ handler with currentGroup := 0, offloadedGroupCount := 0 }, ?_, holds.offloadGroups, holds.layers, holds.windowMap, rfl,
    holds.counted, rfl, holds.states, holds.copies, holds.within⟩
  rw [onGroupCommitBackward_of address holds.current window, if_neg (by omega)]
  rfl

/-! ### Popping -/

/-- What is saved stands for a tensor. -/
inductive Found (entries : List (Tag × State δ ε)) : Saved δ ε → Tensor δ ε → Prop where
  | tensor (tensor : Tensor δ ε) : Found entries (.tensor tensor) tensor
  | tag {tag : Tag} {tensor : Tensor δ ε} (found : Dictionary.get entries tag = some (.tensor tensor)) : Found entries (.tag tag) tensor

omit [DecidableEq δ] in
theorem Found.stray {tensor other : Tensor δ ε} (found : Found entries (.tensor tensor) other) : other = tensor := by
  cases found
  rfl

omit [DecidableEq δ] in
theorem Found.entry {tag : Tag} {tensor : Tensor δ ε} (found : Found entries (.tag tag) tensor) :
    Dictionary.get entries tag = some (.tensor tensor) := by
  cases found with
  | tag found => exact found

def tagsOf (order : List (Saved δ ε)) : List Tag :=
  order.filterMap (fun | .tag tag => some tag | .tensor _ => none)

omit [DecidableEq δ] in
theorem At.popped (holds : At groups handler group count offloaded entries mapping) (tag : Tag) :
    At groups { handler with
      tensorTagToState := Dictionary.erase handler.tensorTagToState [tag]
      tensorTagToBuf := Dictionary.erase handler.tensorTagToBuf [tag] } group count offloaded (Dictionary.erase entries [tag]) mapping := by
  refine ⟨holds.offloadGroups, holds.layers, holds.windowMap, holds.current, holds.counted, holds.left, ?_, holds.copies, ?_⟩
  · simp only [holds.states]
  · intro other member
    obtain ⟨inside, different⟩ := Dictionary.mem_keys_erase.mp member
    exact Dictionary.mem_keys_erase.mpr ⟨holds.within other inside, different⟩

omit [DecidableEq δ] in
theorem Found.of_erase {saved : Saved δ ε} {tensor : Tensor δ ε} {tags : List Tag}
    (found : Found (Dictionary.erase entries tags) saved tensor) : Found entries saved tensor := by
  cases found with
  | tensor => exact .tensor tensor
  | tag found =>
    rw [Dictionary.get_erase] at found
    split at found
    · cases found
    · exact .tag found

variable {order : List (Saved δ ε)}

omit [DecidableEq δ] in
theorem popAll_found (holds : At groups handler group count offloaded entries mapping)
    (known : ∀ saved ∈ order, ∃ tensor, Found entries saved tensor) (distinct : (tagsOf order).Nodup) :
    ∃ next results, popAll handler order = .ok (next, results) ∧ List.Forall₂ (Found entries) order results ∧
      At groups next group count offloaded (Dictionary.erase entries (tagsOf order)) mapping := by
  induction order generalizing handler entries with
  | nil =>
    refine ⟨handler, [], rfl, .nil, ?_⟩
    rw [tagsOf, filterMap_nil, Dictionary.erase_absent (fun _ _ => not_mem_nil)]
    exact holds
  | cons saved order ih =>
    obtain ⟨⟨tensor, first⟩, others⟩ := forall_mem_cons.mp known
    cases first with
    | tensor =>
      obtain ⟨next, results, pops, related, after⟩ := ih holds others distinct
      refine ⟨next, tensor :: results, ?_, .cons (.tensor tensor) related, after⟩
      simp only [popAll, tensorPop, ok_bind, pops]
      rfl
    | @tag tag _ found =>
      obtain ⟨fresh, distinct⟩ := nodup_cons.mp distinct
      have remaining : ∀ saved ∈ order, ∃ tensor, Found (Dictionary.erase entries [tag]) saved tensor := by
        intro saved member
        obtain ⟨tensor, there⟩ := others saved member
        refine ⟨tensor, ?_⟩
        cases there with
        | tensor => exact .tensor tensor
        | @tag other _ there =>
          have different : other ∉ [tag] := by
            intro same
            rw [mem_singleton] at same
            exact fresh (mem_filterMap.mpr ⟨_, member, congrArg some same⟩)
          apply Found.tag
          rw [Dictionary.get_erase, if_neg different, there]
      obtain ⟨next, results, pops, related, after⟩ := ih (holds.popped tag) remaining distinct
      refine ⟨next, tensor :: results, ?_, .cons (.tag found) (related.imp (fun _ _ => Found.of_erase)), ?_⟩
      · simp only [popAll, tensorPop, holds.states, found, ok_bind] at pops ⊢
        rw [pops]
        rfl
      · rw [Dictionary.erase_erase] at after
        exact after

/-- Every pop returns a tensor with the shape and the elements of the one that was pushed. -/
def Agrees (layer : List (Tensor δ ε × Bool)) (saved order : List (Saved δ ε)) (popped : List (Tensor δ ε)) : Prop :=
  ∀ pair ∈ layer.zip saved, ∀ result ∈ order.zip popped, result.1 = pair.2 → result.2.toData = pair.1.1.toData

omit [DecidableEq δ] in
theorem tagsOf_savedFrom (group index : Nat) (layer : List (Tensor δ ε × Bool)) :
    tagsOf (savedFrom group index layer) = (range (needed layer).length).map (fun i => (group, index + i)) := by
  induction layer generalizing index with
  | nil => rfl
  | cons item layer ih =>
    obtain ⟨tensor, need⟩ := item
    cases need with
    | true =>
      have first : tagsOf (savedFrom group index ((tensor, true) :: layer)) =
          (group, index) :: tagsOf (savedFrom group (index + 1) layer) := rfl
      have size : (needed ((tensor, true) :: layer)).length = (needed layer).length + 1 := rfl
      rw [first, ih, size, range_succ_eq_map, map_cons, map_map]
      congr 1
      apply map_congr_left
      intro i _
      simp only [Function.comp_apply, Nat.succ_eq_add_one]
      congr 1
      omega
    | false => exact ih index

variable {layer : List (Tensor δ ε × Bool)}

omit [DecidableEq δ] in
theorem savedFrom_zip {group index : Nat} {pair : (Tensor δ ε × Bool) × Saved δ ε}
    (inside : pair ∈ layer.zip (savedFrom group index layer)) :
    pair.2 = .tensor pair.1.1 ∨ ∃ i, pair.2 = .tag (group, index + i) ∧ (needed layer)[i]? = some pair.1.1 := by
  induction layer generalizing index with
  | nil => cases inside
  | cons item layer ih =>
    obtain ⟨tensor, need⟩ := item
    cases need with
    | true =>
      cases inside with
      | head => exact .inr ⟨0, rfl, rfl⟩
      | tail _ later =>
        refine (ih later).imp_right ?_
        rintro ⟨i, tag, found⟩
        refine ⟨i + 1, ?_, found⟩
        rw [tag, Nat.add_right_comm, Nat.add_assoc]
    | false =>
      cases inside with
      | head => exact .inl rfl
      | tail _ later => exact ih later

omit [DecidableEq δ] in
theorem savedFrom_pair (group index : Nat) {i : Nat} {tensor : Tensor δ ε} (found : (needed layer)[i]? = some tensor) :
    ((tensor, true), Saved.tag (group, index + i)) ∈ layer.zip (savedFrom group index layer) := by
  induction layer generalizing index i with
  | nil => cases found
  | cons item layer ih =>
    obtain ⟨first, need⟩ := item
    cases need with
    | true =>
      cases i with
      | zero =>
        cases found
        exact mem_cons_self
      | succ i =>
        have later := ih (index + 1) (i := i) found
        rw [Nat.add_right_comm, Nat.add_assoc] at later
        exact mem_cons_of_mem _ later
    | false => exact mem_cons_of_mem _ (ih index found)

omit [DecidableEq δ] in
theorem savedFrom_mem {group index : Nat} {saved : Saved δ ε} (inside : saved ∈ savedFrom group index layer) :
    (∃ tensor, saved = .tensor tensor) ∨ ∃ i < (needed layer).length, saved = .tag (group, index + i) := by
  cases saved with
  | tensor tensor => exact .inl ⟨tensor, rfl⟩
  | tag tag =>
    have listed : tag ∈ tagsOf (savedFrom group index layer) := mem_filterMap.mpr ⟨_, inside, rfl⟩
    rw [tagsOf_savedFrom] at listed
    obtain ⟨i, bound, rfl⟩ := mem_map.mp listed
    exact .inr ⟨i, mem_range.mp bound, rfl⟩

omit [DecidableEq δ] in
theorem get_block (other : ∀ entry ∈ earlier, entry.1.1 ≠ group) {index : Nat} {tensor : Tensor δ ε}
    (found : later[index]? = some tensor) :
    Dictionary.get (earlier ++ block group later .tensor) (group, index) = some (.tensor tensor) := by
  have absent : (group, index) ∉ earlier.map Prod.fst := by
    intro inside
    obtain ⟨entry, inside, same⟩ := mem_map.mp inside
    exact other entry inside (congrArg Prod.fst same)
  have distinct : ((block group later State.tensor).map Prod.fst).Nodup := by
    rw [block_keys]
    exact tagged_distinct group later
  rw [Dictionary.get_append_right absent]
  exact Dictionary.get_of_mem distinct (block_mem found)

omit [DecidableEq δ] in
theorem agrees_iff {later results : List (Tensor δ ε)}
    (other : ∀ entry ∈ earlier, entry.1.1 ≠ group) (size : later.length = (needed layer).length)
    (permuted : (savedFrom group 0 layer).Perm order)
    (related : List.Forall₂ (Found (earlier ++ block group later .tensor)) order results) :
    Agrees layer (savedFrom group 0 layer) order results ↔
      ∀ pair ∈ (needed layer).zip later, pair.2.toData = pair.1.toData := by
  constructor
  · intro agrees pair inside
    obtain ⟨i, bound, rfl⟩ := List.mem_iff_getElem.mp inside
    rw [List.length_zip, size, min_self] at bound
    rw [List.getElem_zip]
    have pushed := savedFrom_pair group 0 (List.getElem?_eq_getElem bound)
    rw [Nat.zero_add] at pushed
    obtain ⟨result, popped, found⟩ := forall₂_zip related (permuted.mem_iff.mp (List.of_mem_zip pushed).2)
    have entry := found.entry
    rw [get_block other (List.getElem?_eq_getElem (size.symm ▸ bound))] at entry
    cases entry
    exact agrees _ pushed _ popped rfl
  · intro same pair pushed result popped equal
    have found := List.forall₂_zip related popped
    rcases savedFrom_zip pushed with stray | ⟨i, tag, listed⟩
    · rw [equal, stray] at found
      rw [found.stray]
    · rw [equal, tag, Nat.zero_add] at found
      obtain ⟨bound, listed⟩ := List.getElem?_eq_some_iff.mp listed
      have entry := found.entry
      rw [get_block other (List.getElem?_eq_getElem (size.symm ▸ bound))] at entry
      have shown := State.tensor.inj (Option.some.inj entry)
      have beside : (pair.1.1, result.2) ∈ (needed layer).zip later := by
        rw [← shown, ← listed]
        exact List.mem_iff_getElem.mpr ⟨i, by rw [List.length_zip, size, min_self]; exact bound, List.getElem_zip⟩
      exact same _ beside

omit [DecidableEq δ] in
theorem popAll_at (other : ∀ entry ∈ earlier, entry.1.1 ≠ group) (size : later.length = (needed layer).length)
    (permuted : (savedFrom group 0 layer).Perm order)
    (holds : At groups handler group count offloaded (earlier ++ block group later .tensor) mapping) :
    ∃ next results, popAll handler order = .ok (next, results) ∧ At groups next group count offloaded earlier mapping ∧
      (Agrees layer (savedFrom group 0 layer) order results ↔
        ∀ pair ∈ (needed layer).zip later, pair.2.toData = pair.1.toData) := by
  have tags : (tagsOf (savedFrom group 0 layer)).Perm (tagsOf order) := permuted.filterMap _
  rw [tagsOf_savedFrom] at tags
  have distinct : (tagsOf order).Nodup :=
    tags.nodup_iff.mp (nodup_range.map (fun _ _ same => by simpa using same))
  have known : ∀ saved ∈ order, ∃ tensor, Found (earlier ++ block group later .tensor) saved tensor := by
    intro saved member
    obtain ⟨tensor, rfl⟩ | ⟨i, bound, rfl⟩ := savedFrom_mem (permuted.mem_iff.mpr member)
    · exact ⟨tensor, .tensor tensor⟩
    · rw [Nat.zero_add]
      exact ⟨_, .tag (get_block other (List.getElem?_eq_getElem (size ▸ bound)))⟩
  obtain ⟨next, results, pops, related, after⟩ := popAll_found holds known distinct
  refine ⟨next, results, pops, ?_, ?_⟩
  · have kept : Dictionary.erase earlier (tagsOf order) = earlier := by
      apply Dictionary.erase_absent
      intro entry inside listed
      obtain ⟨i, _, same⟩ := mem_map.mp (tags.mem_iff.mpr listed)
      exact other entry inside (congrArg Prod.fst same.symm)
    have gone : Dictionary.erase (block group later State.tensor) (tagsOf order) = [] := by
      apply Dictionary.erase_all
      intro entry inside
      obtain ⟨original, listed, rfl⟩ := mem_map.mp inside
      obtain ⟨i, bound, rfl⟩ := mem_mapIdx.mp listed
      apply tags.mem_iff.mp
      exact mem_map.mpr ⟨i, mem_range.mpr (size ▸ bound), congrArg (Prod.mk group) (Nat.zero_add i)⟩
    rw [Dictionary.erase_append, kept, gone, append_nil] at after
    exact after
  · exact agrees_iff other size permuted related

/-! ### The backward pass -/

/-- Every layer pops what it pushed. -/
inductive Returned : List (List (Tensor δ ε × Bool)) → List (List (Saved δ ε)) → List (List (Saved δ ε)) →
    List (List (Tensor δ ε)) → Prop where
  | nil : Returned [] [] [] []
  | cons {layer : List (Tensor δ ε × Bool)} {saved order : List (Saved δ ε)} {popped : List (Tensor δ ε)}
      {layers : List (List (Tensor δ ε × Bool))} {others orders : List (List (Saved δ ε))} {results : List (List (Tensor δ ε))}
      (agrees : Agrees layer saved order popped) (later : Returned layers others orders results) :
      Returned (layer :: layers) (saved :: others) (order :: orders) (popped :: results)

omit [DecidableEq δ] in
theorem returned_cons {saved order : List (Saved δ ε)} {popped : List (Tensor δ ε)}
    {layers : List (List (Tensor δ ε × Bool))} {others orders : List (List (Saved δ ε))} {results : List (List (Tensor δ ε))} :
    Returned (layer :: layers) (saved :: others) (order :: orders) (popped :: results) ↔
      Agrees layer saved order popped ∧ Returned layers others orders results := by
  constructor
  · intro returned
    cases returned with
    | cons agrees later => exact ⟨agrees, later⟩
  · exact fun both => .cons both.1 both.2

def shown (groups group : Nat) : List (Tensor δ ε) :=
  if group < groups then (tensors group).map (restored address (tensors group)) else tensors group

theorem shown_length : (shown address tensors groups group).length = (tensors group).length := by
  rw [shown]
  split
  · exact length_map _
  · rfl

omit [DecidableEq δ] in
theorem zip_changed (ts : List (Tensor δ ε)) (change : Tensor δ ε → Tensor δ ε) :
    ts.zip (ts.map change) = ts.map (fun tensor => (tensor, change tensor)) := by
  have both : (ts.map id).zip (ts.map change) = ts.map (fun tensor => (id tensor, change tensor)) := zip_map'
  rwa [map_id] at both

theorem shown_same (fits : group < groups → Fits (tensors group)) :
    (∀ pair ∈ (tensors group).zip (shown address tensors groups group), pair.2.toData = pair.1.toData) ↔
      (group < groups → Same (tensors group)) := by
  rw [shown]
  split
  · next inside =>
    rw [zip_changed, forall_prop_of_true inside, forall_mem_map]
    exact forall₂_congr (fun tensor member => restored_toData address (fits inside tensor member))
  · next outside =>
    refine iff_of_true ?_ (fun inside => (outside inside).elim)
    have unchanged := zip_changed (tensors group) id
    rw [map_id] at unchanged
    rw [unchanged, forall_mem_map]
    exact fun _ _ => rfl

theorem backward_at (group : Nat) (two : 2 ≤ groups) {layers : List (List (Tensor δ ε × Bool))} (rest : group + 1 + layers.length = groups + 1)
    (these : Holds tensors (group + 1) layers) {orders : List (List (Saved δ ε))}
    (permuted : List.Forall₂ List.Perm (savedLayers (group + 1) layers) orders)
    (holds : At groups handler (groups + 1) 0 groups (stored tensors groups ++ block groups (tensors groups) .tensor)
      (copiesOf tensors groups)) : Yields (fun _ => ∃ other, other < groups ∧ ¬ Fits (tensors other))
      (fun result => (∀ other, group ≤ other → other < groups → Fits (tensors other)) ∧
        At groups result.1 (group + 1) 0 (max group 1)
          (stored tensors group ++ block group (shown address tensors groups group) .tensor) (copiesOf tensors group) ∧
        (Returned layers (savedLayers (group + 1) layers) orders result.2 ↔
          ∀ other, group < other → other < groups → Same (tensors other))) (backward address handler orders) := by
  induction layers generalizing group orders with
  | nil =>
    have last : group = groups := by simpa using rest
    subst last
    cases permuted
    refine ⟨fun other above below => absurd above (Nat.not_le.mpr below), ?_, ?_⟩
    · rw [shown, if_neg (Nat.lt_irrefl _), max_eq_left (by omega)]
      exact holds
    · exact iff_of_true .nil (fun other above below => absurd above (Nat.lt_asymm below))
  | cons layer layers ih =>
    rw [length_cons] at rest
    cases permuted with
    | @cons _ order _ orders first permuted =>
    have inside : group < groups := by omega
    rw [backward]
    refine (ih _ (by omega) these.tail permuted).bind ?_
    intro result done
    obtain ⟨next, results⟩ := result
    obtain ⟨fits, after, returned⟩ := done
    rw [max_eq_left (Nat.le_add_left 1 group)] at after
    have commits := onGroupCommitBackward_at address tensors two inside after
    refine (commits.imp (fun _ misfit => ⟨group, inside, misfit⟩) (fun _ done => done)).bind ?_
    intro final done
    obtain ⟨fit, after⟩ := done
    have tensors_eq : needed layer = tensors (group + 1) := these 0 layer rfl
    have other : ∀ entry ∈ stored tensors group ++ block group (shown address tensors groups group) State.tensor,
        entry.1.1 ≠ group + 1 := by
      intro entry member
      rcases mem_append.mp member with before | here
      · exact Nat.ne_of_lt (Nat.lt_succ_of_lt (stored_states tensors entry before))
      · rw [block_group here]
        exact Nat.ne_of_lt (Nat.lt_succ_self group)
    have come_back : shown address tensors groups group = (tensors group).map (restored address (tensors group)) := if_pos inside
    rw [← come_back] at after
    have size : (shown address tensors groups (group + 1)).length = (needed layer).length := by
      rw [shown_length, tensors_eq]
    obtain ⟨last, popped, pops, after, agrees⟩ := popAll_at other size first after
    rw [pops, ok_bind]
    have all_fit : ∀ other, group ≤ other → other < groups → Fits (tensors other) := by
      intro other above below
      rcases Nat.eq_or_lt_of_le above with same | above
      · exact same ▸ fit
      · exact fits other above below
    refine ⟨all_fit, after, ?_⟩
    have steps := shown_same address tensors (fun below => fits (group + 1) le_rfl below)
    rw [tensors_eq, steps] at agrees
    refine (returned_cons.trans (and_congr agrees returned)).trans ?_
    constructor
    · intro both other above below
      obtain ⟨here, later⟩ := both
      rcases Nat.eq_or_lt_of_le (Nat.succ_le_of_lt above) with same | above
      · subst same
        exact here below
      · exact later other above below
    · exact fun every => ⟨every (group + 1) (Nat.lt_succ_self group), fun other above => every other (Nat.lt_of_succ_lt above)⟩

/-! ### Iterations -/

omit [DecidableEq δ] in
theorem init_at : At groups (Handler.init groups (groups + 1) : Handler δ ε) 0 0 0 [] [] :=
  ⟨rfl, rfl, rfl, rfl, rfl, rfl, rfl, rfl, fun _ member => (not_mem_nil member).elim⟩

omit [DecidableEq δ] in
theorem At.eq_init (holds : At groups handler 0 0 0 [] []) : handler = Handler.init groups (groups + 1) := by
  have buffers : handler.tensorTagToBuf = [] :=
    eq_nil_iff_forall_not_mem.mpr (fun _ inside => not_mem_nil (holds.within _ (mem_map_of_mem inside)))
  cases handler
  rw [Handler.init, Handler.mk.injEq]
  exact ⟨holds.offloadGroups, holds.layers, holds.windowMap, holds.current, holds.counted, holds.states, buffers, holds.left,
    holds.copies⟩

/-- Every iteration of a model passes forward and, whatever the order of the pops of a layer, backward; its pops return
what was pushed and the handler is as before. -/
def Trains (handler : Handler δ ε) : List (List (List (Tensor δ ε × Bool))) → Prop
  | [] => True
  | layers :: iterations => ∃ pushed saved, forward handler layers = .ok (pushed, saved) ∧
      ∀ orders, List.Forall₂ List.Perm saved orders → ∃ next popped, backward address pushed orders = .ok (next, popped) ∧
        Returned layers saved orders popped ∧ next = handler ∧ Trains next iterations

/-- The layers before the last save no two tensors that share an address and a type but not their elements. -/
def Clear (groups : Nat) (layers : List (List (Tensor δ ε × Bool))) : Prop :=
  ∀ layer ∈ layers.take groups, ∀ first ∈ needed layer, ∀ second ∈ needed layer,
    getUniqueTensorKey first = getUniqueTensorKey second → first.elements = second.elements

def groupTensors (layers : List (List (Tensor δ ε × Bool))) (group : Nat) : List (Tensor δ ε) := needed (layers.getD group [])

omit [DecidableEq δ] in
theorem groupTensors_holds (layers : List (List (Tensor δ ε × Bool))) : Holds (groupTensors layers) 0 layers := by
  intro index layer found
  rw [groupTensors, Nat.zero_add, getD_eq_getElem?_getD, found, Option.getD_some]

theorem clear_iff {layers : List (List (Tensor δ ε × Bool))} (size : layers.length = groups + 1) :
    Clear groups layers ↔ ∀ group < groups, Same (groupTensors layers group) := by
  simp only [same_iff, groupTensors]
  constructor
  · intro clear group inside
    apply clear
    rw [getD_eq_getElem?_getD, List.getElem?_eq_getElem (by omega), Option.getD_some]
    exact mem_take_iff_getElem.mpr ⟨group, by omega, rfl⟩
  · intro same layer inside
    obtain ⟨group, bound, rfl⟩ := mem_take_iff_getElem.mp inside
    have equal := same group (by omega)
    rwa [getD_eq_getElem?_getD, List.getElem?_eq_getElem (by omega), Option.getD_some] at equal

section
variable (two : 2 ≤ groups) {layers : List (List (Tensor δ ε × Bool))} (size : layers.length = groups + 1)
include two layers size

theorem iteration_at : ∃ pushed saved, forward (Handler.init groups (groups + 1)) layers = .ok (pushed, saved) ∧
      ∀ orders, List.Forall₂ List.Perm saved orders →
        Yields (fun _ => ¬ Clear groups layers) (fun result => result.1 = Handler.init groups (groups + 1) ∧
          (Returned layers saved orders result.2 ↔ Clear groups layers)) (backward address pushed orders) := by
  obtain ⟨pushed, passes, after⟩ := forward_at (groupTensors layers) 0 two (by omega) (Nat.zero_le groups)
    (groupTensors_holds layers) init_at
  refine ⟨pushed, _, passes, ?_⟩
  intro orders permuted
  cases layers with
  | nil => cases size
  | cons layer layers =>
    cases permuted with
    | @cons _ order _ orders first permuted =>
    have these := (groupTensors_holds (layer :: layers)).tail
    have run := backward_at address (groupTensors (layer :: layers)) 0 two
      (by rw [length_cons] at size; omega) these permuted after
    rw [clear_iff size, backward]
    refine (run.imp (fun _ misfits same => misfits.elim (fun other misfit => misfit.2 (same other misfit.1).fits)) (fun _ done => done)).bind ?_
    intro result done
    obtain ⟨next, results⟩ := result
    obtain ⟨fits, reached, returned⟩ := done
    obtain ⟨committed, commits, reached⟩ := onGroupCommitBackward_first address two reached
    have size_first : (shown address (groupTensors (layer :: layers)) groups 0).length = (needed layer).length :=
      shown_length address _
    have none_earlier : ∀ entry ∈ ([] : List (Tag × State δ ε)), entry.1.1 ≠ 0 := fun _ inside => (not_mem_nil inside).elim
    obtain ⟨last, popped, pops, final, agrees⟩ := popAll_at none_earlier size_first first reached
    simp only [commits, ok_bind, pops]
    refine ⟨final.eq_init, ?_⟩
    have steps := shown_same address (groupTensors (layer :: layers)) (fun below => fits 0 le_rfl below)
    have positive : 0 < groups := by omega
    refine (returned_cons.trans (and_congr (agrees.trans steps) returned)).trans ?_
    constructor
    · intro both other below
      obtain ⟨here, later⟩ := both
      cases other with
      | zero => exact here below
      | succ other => exact later (other + 1) (Nat.succ_pos other) below
    · exact fun every => ⟨every 0, fun other _ => every other⟩

variable {iterations : List (List (List (Tensor δ ε × Bool)))}

theorem clear_of_trains (trains : Trains address (Handler.init groups (groups + 1)) (layers :: iterations)) :
    Clear groups layers ∧ Trains address (Handler.init groups (groups + 1)) iterations := by
  obtain ⟨pushed, saved, passes, every⟩ := trains
  obtain ⟨pushed', saved', passes', yields⟩ := iteration_at address two size
  cases passes.symm.trans passes'
  have unmoved : List.Forall₂ List.Perm saved saved := forall₂_same.mpr (fun _ _ => List.Perm.refl _)
  obtain ⟨next, popped, runs, returned, same, later⟩ := every saved unmoved
  have outcome := yields saved unmoved
  rw [runs] at outcome
  exact ⟨outcome.2.mp returned, same ▸ later⟩

theorem trains_cons (clear : Clear groups layers) (later : Trains address (Handler.init groups (groups + 1)) iterations) :
    Trains address (Handler.init groups (groups + 1)) (layers :: iterations) := by
  obtain ⟨pushed, saved, passes, yields⟩ := iteration_at address two size
  refine ⟨pushed, saved, passes, ?_⟩
  intro orders permuted
  have outcome := yields orders permuted
  cases runs : backward address pushed orders with
  | error failure =>
    rw [runs] at outcome
    exact (outcome clear).elim
  | ok result =>
    rw [runs] at outcome
    exact ⟨result.1, result.2, rfl, outcome.2.mpr clear, outcome.1, outcome.1.symm ▸ later⟩

end

/-- A model of at least three layers trains exactly when its layers are clear. -/
theorem trains_iff {numLayers : Nat} (three : 3 ≤ numLayers) {iterations : List (List (List (Tensor δ ε × Bool)))}
    (sizes : ∀ layers ∈ iterations, layers.length = numLayers) :
    Trains address (Handler.init (numLayers - 1) numLayers) iterations ↔
      ∀ layers ∈ iterations, Clear (numLayers - 1) layers := by
  obtain ⟨groups, rfl⟩ : ∃ groups, numLayers = groups + 1 := ⟨numLayers - 1, by omega⟩
  rw [Nat.add_sub_cancel]
  have two : 2 ≤ groups := Nat.le_of_succ_le_succ three
  induction iterations with
  | nil => exact iff_of_true trivial (fun _ inside => (List.not_mem_nil inside).elim)
  | cons layers iterations ih =>
    obtain ⟨size, sizes⟩ := List.forall_mem_cons.mp sizes
    rw [List.forall_mem_cons]
    refine Iff.trans ?_ (and_congr_right (fun _ => ih sizes))
    constructor
    · exact clear_of_trains address two size
    · exact fun both => trains_cons address two size both.1 both.2

/-- A matrix of two rows. -/
def matrix : Tensor Unit Nat where
  shape := [2, 3]
  elements := [0, 1, 2, 3, 4, 5]
  full := rfl
  dataPtr := 0
  storageOffset := 0
  dtype := ()

/-- Its transpose, a view of the same storage. -/
def transposed : Tensor Unit Nat where
  shape := [3, 2]
  elements := [0, 3, 1, 4, 2, 5]
  full := rfl
  dataPtr := 0
  storageOffset := 0
  dtype := ()

/-- Two iterations of three layers that each save one tensor. -/
theorem trains_two : Trains (fun _ => 1) (Handler.init 2 3)
    (List.replicate 2 [[(matrix, true)], [(transposed, true)], [(matrix, true), (transposed, false)]]) := by
  apply (trains_iff (fun _ => 1) le_rfl ?_).mpr
  · intro layers inside
    rw [List.eq_of_mem_replicate inside]
    intro layer member first one second other _
    cases member with
    | head =>
      rw [List.mem_singleton.mp one, List.mem_singleton.mp other]
    | tail _ member =>
      cases member with
      | head => rw [List.mem_singleton.mp one, List.mem_singleton.mp other]
      | tail _ member => cases member
  · intro layers inside
    rw [List.eq_of_mem_replicate inside]
    rfl

/-- A layer that saves a matrix and its transpose gets the elements of the matrix for both. -/
theorem transpose_not_restored :
    ¬ Trains (fun _ => 1) (Handler.init 2 3) [[[(matrix, true), (transposed, true)], [], []]] := by
  intro trains
  have clear : Clear 2 _ := (clear_of_trains (fun _ => 1) le_rfl rfl trains).1
  have equal := clear _ List.mem_cons_self matrix List.mem_cons_self transposed (List.mem_cons_of_mem _ List.mem_cons_self) rfl
  exact absurd equal (by decide)

end LLMFusion.ActivationOffload
