import LLMFusion.Proofs.Protocol
import LLMFusion.Dispatch

/-! Calls over a mesh of workers. Every worker of a data-parallel rank gets the same
rows, and the outputs of one worker for each rank, in order, are those of the whole
batch. -/

namespace LLMFusion.Dispatch
open Protocol Slices Fallible List

/-! ### Dispatch and collect -/

section Transport
variable {δ ε : Type} {dpRankMapping : List Nat} {dpSize worldSize : Nat}

theorem mapM_getItem {γ : Type} (items : List δ) (next : δ → Except Failure γ) :
    (List.range items.length).mapM (fun i => getItem items i >>= next) = items.mapM next := by
  induction items with
  | nil => rfl
  | cons item items ih =>
    rw [List.length_cons, List.range_succ_eq_map, List.mapM_cons, List.mapM_map, List.mapM_cons, ← ih]
    rfl

theorem transformArgs_ok (positive : 0 < dpSize) (length : dpRankMapping.length = worldSize)
    (ranks : ∀ rank ∈ dpRankMapping, rank < dpSize) (shard : Nat → δ) :
    transformArgs dpRankMapping dpSize worldSize ((range dpSize).map shard) = .ok (dpRankMapping.map shard) := by
  have filled : ((range dpSize).map shard).isEmpty = false := by
    rw [isEmpty_eq_false_iff, Ne, map_eq_nil_iff, range_eq_nil]
    omega
  have each : ∀ rank ∈ dpRankMapping, getItem ((range dpSize).map shard) rank = .ok (shard rank) := by
    intro rank member
    simp [getItem, ranks rank member]
  rw [transformArgs, parallelPut, filled, ← length]
  simp only [Bool.false_eq_true, ite_false, ok_bind, length_map, length_range, ne_eq,
    not_true_eq_false]
  rw [mapM_getItem dpRankMapping (getItem ((range dpSize).map shard)), mapM_map shard each]

theorem executeRank_ok {α : Type} {method : List δ → List (String × δ) → ε} {args : List α} {kwargs : List (String × α)}
    (shard : α → Nat → δ) (rank : Nat) {dpRank : Nat} (named : dpRankMapping[rank]? = some dpRank) :
    executeRank method (args.map (fun arg => dpRankMapping.map (shard arg)))
        (kwargs.map (fun kwarg => (kwarg.1, dpRankMapping.map (shard kwarg.2)))) rank =
      .ok (method (args.map (fun arg => shard arg dpRank)) (kwargs.map (fun kwarg => (kwarg.1, shard kwarg.2 dpRank)))) := by
  have item : ∀ arg, getItem (dpRankMapping.map (shard arg)) rank = .ok (shard arg dpRank) := by
    intro arg
    simp [getItem, named]
  have first := mapM_map (fun arg => shard arg dpRank) (fun arg (_ : arg ∈ args) => item arg)
  have second : kwargs.mapM (fun kwarg => do
      let value ← getItem (dpRankMapping.map (shard kwarg.2)) rank
      return (kwarg.1, value)) = (.ok (kwargs.map (fun kwarg => (kwarg.1, shard kwarg.2 dpRank))) : Except Failure _) :=
    mapM_map _ (fun kwarg _ => by rw [item]; rfl)
  rw [executeRank, List.mapM_map, List.mapM_map]
  simp only [Function.comp_def] at first second ⊢
  rw [first, ok_bind, second, ok_bind]
  rfl

/-- The data-parallel ranks of the collecting workers, in the order of the workers. -/
def collecting (dpRankMapping : List Nat) (collectMask : List Bool) : List Nat :=
  (dpRankMapping.zip collectMask).filterMap (fun worker => if worker.2 then some worker.1 else none)

theorem collectNdCompute_ok {collectMask : List Bool} (length : dpRankMapping.length = worldSize)
    (masks : collectMask.length = worldSize) (output : Nat → ε) :
    collectNdCompute collectMask worldSize (dpRankMapping.map output) =
      .ok ((collecting dpRankMapping collectMask).map output) := by
  let flag : Nat × Bool → Option ε := fun worker => if worker.2 then some (output worker.1) else none
  have count : (dpRankMapping.zip collectMask).length = worldSize := by simp [length, masks]
  have each : ∀ globalRank ∈ range worldSize, (do
      let collectDpRank ← getItem collectMask globalRank
      if collectDpRank then
        let value ← getItem (dpRankMapping.map output) globalRank
        return some value
      else return none) = (getItem (dpRankMapping.zip collectMask) globalRank >>= fun worker => .ok (flag worker)) := by
    intro globalRank member
    have inside := mem_range.mp member
    have first : globalRank < dpRankMapping.length := by omega
    have second : globalRank < collectMask.length := by omega
    have isMask : getItem collectMask globalRank = .ok collectMask[globalRank] := by
      simp [getItem, getElem?_eq_getElem second]
    have isOutput : getItem (dpRankMapping.map output) globalRank = .ok (output dpRankMapping[globalRank]) := by
      simp [getItem, getElem?_eq_getElem first]
    have isWorker : getItem (dpRankMapping.zip collectMask) globalRank =
        .ok (dpRankMapping[globalRank], collectMask[globalRank]) := by
      have inside : globalRank < (dpRankMapping.zip collectMask).length := by omega
      rw [getItem, getElem?_eq_getElem inside, getElem_zip]
    rw [isMask, isOutput, isWorker, ok_bind, ok_bind]
    cases collectMask[globalRank] with
    | true => rfl
    | false => rfl
  have selected : ((dpRankMapping.zip collectMask).map flag).reduceOption =
      (collecting dpRankMapping collectMask).map output := by
    rw [reduceOption, filterMap_map, collecting, map_filterMap]
    congr 1
    funext worker
    cases isMask : worker.2 <;> simp [flag, isMask]
  rw [collectNdCompute]
  simp only [length_map, length, ne_eq, not_true_eq_false, ite_false]
  rw [mapM_congr each]
  conv_lhs => rw [← count]
  rw [mapM_getItem, mapM_map flag (fun _ _ => rfl), ok_bind, selected]
  rfl

end Transport

/-! ### Row-wise methods -/

section Mesh
variable {τ ν μ τ' ν' μ' : Type}

/-- The arguments of a call all have the same number of rows. -/
structure Aligned (rows : Nat) (args : List (DataProto τ ν μ)) (kwargs : List (String × DataProto τ ν μ)) : Prop where
  args : ∀ arg ∈ args, HasRows rows arg
  kwargs : ∀ kwarg ∈ kwargs, HasRows rows kwarg.2

/-- A method on the rows of its arguments between two bounds. -/
def onRows (method : List (DataProto τ ν μ) → List (String × DataProto τ ν μ) → DataProto τ' ν' μ')
    (args : List (DataProto τ ν μ)) (kwargs : List (String × DataProto τ ν μ)) (piece : Nat × Nat) :
    DataProto τ' ν' μ' :=
  method (args.map (fun arg => arg.between piece.1 piece.2))
    (kwargs.map (fun kwarg => (kwarg.1, kwarg.2.between piece.1 piece.2)))

/-- A method computes its rows one by one: on some rows of the arguments it returns
those rows. What it returns beside the rows does not contradict itself. -/
structure RowWise [Value μ'] (method : List (DataProto τ ν μ) → List (String × DataProto τ ν μ) → DataProto τ' ν' μ') :
    Prop where
  hasRows : ∀ rows args kwargs, Aligned rows args kwargs → HasRows rows (method args kwargs)
  between : ∀ rows args kwargs (piece : Nat × Nat), Aligned rows args kwargs → piece.1 ≤ piece.2 → piece.2 ≤ rows →
    SameColumns (onRows method args kwargs piece) ((method args kwargs).between piece.1 piece.2)
  merges : ∀ rows args kwargs (pieces : List (Nat × Nat)), Aligned rows args kwargs →
    (∀ piece ∈ pieces, piece.1 ≤ piece.2 ∧ piece.2 ≤ rows) →
    ∃ metaInfo, mergeMetaInfo (pieces.map (fun piece => (onRows method args kwargs piece).metaInfo)) = .ok metaInfo

variable [Value μ] [Value μ'] {dpRankMapping : List Nat} {collectMask : List Bool} {dpSize worldSize size : Nat}
  {args : List (DataProto τ ν μ)} {kwargs : List (String × DataProto τ ν μ)}

def shard (size : Nat) (data : DataProto τ ν μ) (dpRank : Nat) : DataProto τ ν μ :=
  data.between (dpRank * size) ((dpRank + 1) * size)

theorem chunkArg_ok (autoPadding : Bool) (positive : 0 < dpSize) {arg : DataProto τ ν μ}
    (hasRows : HasRows (dpSize * size) arg) :
    chunkArg autoPadding dpSize arg = .ok ((range dpSize).map (shard size arg)) := by
  have chunked := chunk_ok autoPadding positive hasRows
  rw [evenBounds, map_map] at chunked
  rw [chunkArg, chunked, ok_bind, if_pos (by simp)]
  rfl

theorem dispatchNdComputeDataproto_ok (autoPadding : Bool) (positive : 0 < dpSize)
    (length : dpRankMapping.length = worldSize) (ranks : ∀ rank ∈ dpRankMapping, rank < dpSize) (some : args ≠ [])
    (aligned : Aligned (dpSize * size) args kwargs) :
    dispatchNdComputeDataproto autoPadding dpRankMapping dpSize worldSize args kwargs =
      .ok (args.map (fun arg => dpRankMapping.map (shard size arg)),
        kwargs.map (fun kwarg => (kwarg.1, dpRankMapping.map (shard size kwarg.2)))) := by
  have splitted : splitArgsKwargsDataProto autoPadding dpSize args kwargs =
      .ok (args.map (fun arg => (List.range dpSize).map (shard size arg)),
        kwargs.map (fun kwarg => (kwarg.1, (List.range dpSize).map (shard size kwarg.2)))) := by
    rw [splitArgsKwargsDataProto,
      mapM_map _ (fun arg member => chunkArg_ok autoPadding positive (aligned.args arg member)),
      ok_bind, mapM_map _ (fun kwarg member => by
        rw [chunkArg_ok autoPadding positive (aligned.kwargs kwarg member), ok_bind]
        rfl)]
    rfl
  obtain ⟨first, others, rfl⟩ := List.exists_cons_of_ne_nil some
  have each : ∀ data : DataProto τ ν μ, transformArgs dpRankMapping dpSize worldSize ((List.range dpSize).map (shard size data)) =
      .ok (dpRankMapping.map (shard size data)) := fun data => transformArgs_ok positive length ranks (shard size data)
  rw [dispatchNdComputeDataproto, splitted, ok_bind, dispatchNdCompute]
  have counted : getItem ((first :: others).map (fun arg => (List.range dpSize).map (shard size arg))) 0 =
      .ok ((List.range dpSize).map (shard size first)) := rfl
  rw [counted, ok_bind, List.mapM_map, List.mapM_map]
  simp only [Function.comp_def, each, ok_bind]
  have transformed : kwargs.mapM (fun kwarg => (pure (kwarg.1, dpRankMapping.map (shard size kwarg.2)) : Except Failure _)) =
      .ok (kwargs.map (fun kwarg => (kwarg.1, dpRankMapping.map (shard size kwarg.2)))) :=
    mapM_map _ (fun _ _ => rfl)
  rw [mapM_map _ (fun _ _ => rfl), ok_bind, transformed]
  rfl

omit [Value μ] [Value μ'] in
theorem executeAll_ok (args : List (DataProto τ ν μ)) (kwargs : List (String × DataProto τ ν μ)) (size : Nat)
    (method : List (DataProto τ ν μ) → List (String × DataProto τ ν μ) → DataProto τ' ν' μ')
    (length : dpRankMapping.length = worldSize) :
    executeAll worldSize method (args.map (fun arg => dpRankMapping.map (shard size arg)))
        (kwargs.map (fun kwarg => (kwarg.1, dpRankMapping.map (shard size kwarg.2)))) =
      .ok (dpRankMapping.map (fun dpRank => onRows method args kwargs (dpRank * size, (dpRank + 1) * size))) := by
  have each : ∀ rank ∈ range dpRankMapping.length, executeRank method
      (args.map (fun arg => dpRankMapping.map (shard size arg)))
      (kwargs.map (fun kwarg => (kwarg.1, dpRankMapping.map (shard size kwarg.2)))) rank =
        (getItem dpRankMapping rank >>= fun dpRank =>
          .ok (onRows method args kwargs (dpRank * size, (dpRank + 1) * size))) := by
    intro rank member
    have named := getElem?_eq_getElem (mem_range.mp member)
    rw [executeRank_ok (shard size) rank named, getItem, named]
    rfl
  rw [executeAll, ← length, mapM_congr each, mapM_getItem, mapM_map _ (fun _ _ => rfl)]

variable {method : List (DataProto τ ν μ) → List (String × DataProto τ ν μ) → DataProto τ' ν' μ'}

omit [Value μ] in
theorem concat_onRows (positive : 0 < dpSize) (rowWise : RowWise method) (aligned : Aligned (dpSize * size) args kwargs) :
    ∃ result, DataProto.concat ((range dpSize).map (fun dpRank =>
        onRows method args kwargs (dpRank * size, (dpRank + 1) * size))) = .ok result ∧
      SameColumns result (method args kwargs) := by
  have inside : ∀ piece ∈ evenBounds size dpSize, piece.1 ≤ piece.2 ∧ piece.2 ≤ dpSize * size := fun piece member =>
    ((evenBounds_covers size dpSize).inside piece member).2
  have outputs : (range dpSize).map (fun dpRank => onRows method args kwargs (dpRank * size, (dpRank + 1) * size)) =
      (evenBounds size dpSize).map (onRows method args kwargs) := by
    rw [evenBounds, map_map]
    rfl
  have nonempty : evenBounds size dpSize ≠ [] := by
    rw [evenBounds, Ne, map_eq_nil_iff, range_eq_nil]
    omega
  obtain ⟨metaInfo, merges⟩ := rowWise.merges _ args kwargs _ aligned inside
  have merges : mergeMetaInfo (((evenBounds size dpSize).map (onRows method args kwargs)).map DataProto.metaInfo) =
      .ok metaInfo := by rwa [map_map]
  have pieces : List.Forall₂ (fun item piece => SameColumns item ((method args kwargs).between piece.1 piece.2))
      ((evenBounds size dpSize).map (onRows method args kwargs)) (evenBounds size dpSize) := by
    rw [forall₂_map_left_iff, forall₂_same]
    exact fun piece member => rowWise.between _ args kwargs piece aligned (inside piece member).1 (inside piece member).2
  obtain ⟨result, concatenated, same, _⟩ := concat_pieces (rowWise.hasRows _ args kwargs aligned)
    (evenBounds_covers size dpSize) nonempty pieces merges
  exact ⟨result, outputs ▸ concatenated, same⟩

private theorem callNdCompute_ok
    (autoPadding : Bool) (positive : 0 < dpSize) (length : dpRankMapping.length = worldSize)
    (masks : collectMask.length = worldSize) (ranks : ∀ rank ∈ dpRankMapping, rank < dpSize)
    (collects : collecting dpRankMapping collectMask = range dpSize) (rowWise : RowWise method) (some : args ≠ [])
    (aligned : Aligned (dpSize * size) args kwargs) :
    ∃ result, callNdCompute autoPadding dpRankMapping collectMask dpSize worldSize method args kwargs = .ok result ∧
      SameColumns result (method args kwargs) := by
  obtain ⟨result, concatenated, same⟩ := concat_onRows positive rowWise aligned
  refine ⟨result, ?_, same⟩
  rw [callNdCompute, dispatchNdComputeDataproto_ok autoPadding positive length ranks some aligned, ok_bind,
    executeAll_ok _ _ _ method length, ok_bind, collectNdComputeDataproto, collectNdCompute_ok length masks, collects,
    ok_bind, if_neg (by simp; omega)]
  exact concatenated

theorem dispatchLazyComputeDataProto_eq (autoPadding : Bool) (length : dpRankMapping.length = worldSize)
    (ranks : ∀ rank ∈ dpRankMapping, rank < dpSize) (reached : ∀ dpRank < dpSize, dpRank ∈ dpRankMapping)
    (positive : 0 < dpSize) : dispatchLazyComputeDataProto autoPadding dpRankMapping worldSize args kwargs =
      dispatchNdComputeDataproto autoPadding dpRankMapping dpSize worldSize args kwargs := by
  have last : dpRankMapping.max? = some (dpSize - 1) := by
    rw [max?_eq_some_iff]
    refine ⟨reached _ (by omega), ?_⟩
    intro rank member
    have bound := ranks rank member
    omega
  rw [dispatchLazyComputeDataProto, if_neg (not_not_intro length), last]
  simp only [Nat.sub_add_cancel positive]

/-- A call of a row-wise method over a mesh computes, in the order of the rows, what
the method computes of the whole batch, and the workers of one data-parallel rank get
the same shards. -/
theorem callNdCompute_row_wise {rows : Nat}
    {method : List (DataProto τ ν μ) → List (String × DataProto τ ν μ) → DataProto τ' ν' μ'} (autoPadding : Bool)
    (positive : 0 < dpSize) (length : dpRankMapping.length = worldSize) (masks : collectMask.length = worldSize)
    (ranks : ∀ rank ∈ dpRankMapping, rank < dpSize)
    (collects : collecting dpRankMapping collectMask = List.range dpSize) (rowWise : RowWise method) (some : args ≠ [])
    (aligned : Aligned rows args kwargs) (divides : dpSize ∣ rows) :
    (∃ result, callNdCompute autoPadding dpRankMapping collectMask dpSize worldSize method args kwargs = .ok result ∧
      SameColumns result (method args kwargs)) ∧
    ∃ allArgs allKwargs,
      dispatchNdComputeDataproto autoPadding dpRankMapping dpSize worldSize args kwargs = .ok (allArgs, allKwargs) ∧
      dispatchLazyComputeDataProto autoPadding dpRankMapping worldSize args kwargs = .ok (allArgs, allKwargs) ∧
      ∀ i j : Nat, dpRankMapping[i]? = dpRankMapping[j]? →
        (∀ arg ∈ allArgs, arg[i]? = arg[j]?) ∧ (∀ kwarg ∈ allKwargs, kwarg.2[i]? = kwarg.2[j]?) := by
  obtain ⟨size, rfl⟩ := divides
  have dispatched := dispatchNdComputeDataproto_ok autoPadding positive length ranks some aligned
  have reached : ∀ dpRank < dpSize, dpRank ∈ dpRankMapping := by
    intro dpRank inside
    have member : dpRank ∈ collecting dpRankMapping collectMask := by
      rw [collects]
      exact List.mem_range.mpr inside
    obtain ⟨worker, isWorker, chosen⟩ := List.mem_filterMap.mp member
    split at chosen
    · obtain rfl := Option.some.inj chosen
      exact (List.of_mem_zip isWorker).1
    · cases chosen
  refine ⟨callNdCompute_ok autoPadding positive length masks ranks collects rowWise some aligned, _, _, dispatched, ?_, ?_⟩
  · rw [dispatchLazyComputeDataProto_eq autoPadding length ranks reached positive, dispatched]
  · intro i j same
    constructor
    · intro arg member
      obtain ⟨data, _, rfl⟩ := List.mem_map.mp member
      rw [List.getElem?_map, List.getElem?_map, same]
    · intro kwarg member
      obtain ⟨data, _, rfl⟩ := List.mem_map.mp member
      rw [List.getElem?_map, List.getElem?_map, same]

/-- Numbers and `None` in `meta_info`: no metrics are made of them. -/
instance scalarValue : Value (Option Int) where
  truthy value := value.any (· != 0)
  isNone value := value.isNone
  asList _ := none
  asDict _ := none
  ofList _ := none
  ofDict _ := none

/-- The method that returns the rows of its first argument. -/
def firstArg (args : List (DataProto τ ν μ)) (_ : List (String × DataProto τ ν μ)) : DataProto τ ν μ :=
  match args with
  | [] => ⟨none, [], [], by simp, by simp⟩
  | first :: _ => { first with metaInfo := [] }

theorem firstArg_rowWise : RowWise (@firstArg τ ν μ) where
  hasRows := by
    intro rows args kwargs aligned
    cases args with
    | nil => exact ⟨by simp [firstArg], by simp [firstArg]⟩
    | cons first rest =>
      have hasRows := aligned.args first mem_cons_self
      exact ⟨hasRows.tensors, hasRows.others⟩
  between := by
    intro rows args kwargs piece _ _ _
    cases args with
    | nil => exact ⟨rfl, rfl⟩
    | cons first rest => exact ⟨rfl, rfl⟩
  merges := by
    intro rows args kwargs pieces _ _
    have none : ∀ piece, (onRows firstArg args kwargs piece).metaInfo = [] := by
      intro piece
      cases args with
      | nil => rfl
      | cons first rest => rfl
    refine ⟨[], ?_⟩
    simp only [none, map_const', mergeMetaInfo, flatten_replicate_nil]
    rfl

/-- Four rows over four workers, two for each of the two data-parallel ranks. -/
theorem callNdCompute_row_wise_four :
    let data : DataProto Nat Nat (Option Int) := ⟨some ⟨4, [("a", [1, 2, 3, 4])], by decide, by decide⟩, [], [], by decide, by simp⟩
    (∃ result, callNdCompute false [0, 0, 1, 1] [true, false, true, false] 2 4 firstArg [data] [] = .ok result ∧
      SameColumns result data) ∧
    ∃ allArgs allKwargs,
      dispatchNdComputeDataproto false [0, 0, 1, 1] 2 4 [data] [] = .ok (allArgs, allKwargs) ∧
      dispatchLazyComputeDataProto false [0, 0, 1, 1] 4 [data] [] = .ok (allArgs, allKwargs) ∧
      ∀ i j : Nat, [0, 0, 1, 1][i]? = [0, 0, 1, 1][j]? →
        (∀ arg ∈ allArgs, arg[i]? = arg[j]?) ∧ (∀ kwarg ∈ allKwargs, kwarg.2[i]? = kwarg.2[j]?) := by
  intro data
  have aligned : Aligned 4 [data] [] :=
    ⟨by
      intro arg member
      obtain rfl := List.mem_singleton.mp member
      exact ⟨by simp [data], by simp [data]⟩, by simp⟩
  exact callNdCompute_row_wise false (by decide) rfl rfl (by decide) (by decide) firstArg_rowWise (by simp) aligned
    (by decide)

end Mesh

end LLMFusion.Dispatch
