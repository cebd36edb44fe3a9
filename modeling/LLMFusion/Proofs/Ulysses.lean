import LLMFusion.Lib.Fallible
import LLMFusion.Ulysses

/-! What the collectives leave of a sequence. An all-to-all of equal chunks is undone by one with
the dimensions exchanged, since the chunks of what a rank joined are what it received. -/

namespace LLMFusion.Ulysses
open NdTensor Slices Fallible List

variable {α : Type}

/-! ### All-to-all -/

def splitAt (size sections i : Nat) : Nat := i * (size / sections) + min i (size % sections)

theorem splitAt_equal {sections : Nat} (present : 0 < sections) (each i : Nat) : splitAt (sections * each) sections i = i * each := by
  rw [splitAt, Nat.mul_div_cancel_left _ present, Nat.mul_mod_right, Nat.min_zero, Nat.add_zero]

def chunk (x : NdTensor α) (sections dim : Nat) (inside : dim < x.shape.length) (rank : Nat) : NdTensor α :=
  x.piece dim (splitAt (x.size dim) sections rank) (splitAt (x.size dim) sections (rank + 1)) inside

section Exchange
variable {x y : Nat → NdTensor α} {ranks scatterDim gatherDim : Nat}

theorem tensorSplit_inside {x : NdTensor α} {sections dim : Nat} (inside : dim < x.shape.length) :
    tensorSplit x sections dim = some ((range sections).map (chunk x sections dim inside)) := by
  unfold tensorSplit
  exact mapM_some _ (fun i _ => narrow_inside inside _ _)

theorem receive_eq_some {chunks : Nat → Nat → NdTensor α} {rank : Nat} (here : rank < ranks) {out : NdTensor α} :
    receive ((range ranks).map (fun source => (range ranks).map (chunks source))) gatherDim rank = some out ↔
      (∀ source < ranks, (chunks source rank).shape = (chunks rank 0).shape) ∧
        cat ((range ranks).map (fun source => chunks source rank)) gatherDim = some out := by
  have own : ((range ranks).map (fun source => (range ranks).map (chunks source)))[rank]? =
      some ((range ranks).map (chunks rank)) := by
    rw [getElem?_map, getElem?_range here, Option.map_some]
  have buffer : ((range ranks).map (chunks rank)).head? = some (chunks rank 0) := by
    rw [head?_map, head?_range, if_neg (by omega), Option.map_some]
  have received : ((range ranks).map (fun source => (range ranks).map (chunks source))).mapM (fun sent => sent[rank]?) =
      some ((range ranks).map (fun source => chunks source rank)) := by
    rw [List.mapM_map]
    apply mapM_some
    intro source _
    rw [Function.comp_apply, getElem?_map, getElem?_range here, Option.map_some]
  simp only [receive, own, buffer, received, Option.bind_eq_bind, Option.bind_some, forall_mem_map, mem_range,
    Option.ite_none_right_eq_some]

theorem allToAll_eq_some (inside : ∀ source, scatterDim < (x source).shape.length) :
    allToAllTensor ((List.range ranks).map x) scatterDim gatherDim = some ((List.range ranks).map y) ↔
      ∀ rank < ranks, (∀ source < ranks, (chunk (x source) ranks scatterDim (inside source) rank).shape =
          (chunk (x rank) ranks scatterDim (inside rank) 0).shape) ∧
        cat ((List.range ranks).map (fun source => chunk (x source) ranks scatterDim (inside source) rank)) gatherDim =
          some (y rank) := by
  have splits : ((List.range ranks).map x).mapM (fun x => tensorSplit x ranks scatterDim) =
      some ((List.range ranks).map (fun source => (List.range ranks).map (chunk (x source) ranks scatterDim (inside source)))) := by
    rw [List.mapM_map]
    exact mapM_some _ (fun source _ => tensorSplit_inside (inside source))
  simp only [allToAllTensor, List.length_map, List.length_range, splits, Option.bind_eq_bind, Option.bind_some]
  rw [mapM_eq_some, List.forall₂_map_right_iff, List.forall₂_same]
  simp only [List.mem_range]
  exact forall₂_congr (fun rank here => receive_eq_some here)

end Exchange

theorem exists_indexed {items : List (NdTensor α)} (present : items ≠ []) :
    ∃ x : Nat → NdTensor α, items = (range items.length).map x ∧ ∀ i, x i ∈ items := by
  obtain ⟨first, rest, rfl⟩ := exists_cons_of_ne_nil present
  refine ⟨fun i => (first :: rest).getD i first, ?_, ?_⟩
  · apply ext_getElem (by rw [length_map, length_range])
    intro i inside _
    rw [getElem_map, getElem_range, getD_eq_getElem?_getD, getElem?_eq_getElem inside, Option.getD_some]
  · intro i
    simp only [getD_eq_getElem?_getD]
    cases found : (first :: rest)[i]? with
    | none => exact mem_cons_self
    | some item => exact mem_of_getElem? found

/-- Tensors of one shape whose scattered dimension falls into equal chunks. -/
structure Equal (locals : List (NdTensor α)) (dim : Nat) (shape : List Nat) (each : Nat) : Prop where
  shapes : ∀ x ∈ locals, x.shape = shape
  inside : dim < shape.length
  size : shape.getD dim 0 = locals.length * each

theorem chunk_size {x : NdTensor α} {sections dim rank : Nat} (inside : dim < x.shape.length) (here : rank < sections) :
    (chunk x sections dim inside rank).size dim = x.size dim / sections + if rank < x.size dim % sections then 1 else 0 := by
  have whole := Nat.div_add_mod (x.size dim) sections
  have blocks : (rank + 1) * (x.size dim / sections) ≤ sections * (x.size dim / sections) := Nat.mul_le_mul_right _ here
  rw [chunk, piece_size, splitAt, splitAt]
  generalize x.size dim / sections = quotient at *
  generalize x.size dim % sections = extras at *
  rw [Nat.succ_mul] at blocks ⊢
  split <;> omega

theorem size_of_chunks {x : NdTensor α} {sections dim each : Nat} (present : 0 < sections) (inside : dim < x.shape.length)
    (equal : ∀ rank < sections, (chunk x sections dim inside rank).size dim = each) : x.size dim = sections * each := by
  have whole := Nat.div_add_mod (x.size dim) sections
  have rest := Nat.mod_lt (x.size dim) present
  have first := equal 0 present
  have last := equal (sections - 1) (by omega)
  rw [chunk_size inside present] at first
  rw [chunk_size inside (by omega), if_neg (by omega), Nat.add_zero] at last
  subst last
  split at first
  next more => omega
  next exact => omega

theorem inside_of_tensorSplit {x : NdTensor α} {sections dim : Nat} (present : 0 < sections) {chunks : List (NdTensor α)}
    (splits : tensorSplit x sections dim = some chunks) : dim < x.shape.length := by
  obtain ⟨first, -, cut⟩ := forall₂_left (mapM_eq_some.mp splits) (mem_range.mpr present)
  by_contra outside
  rw [narrow, dif_neg outside] at cut
  cases cut

theorem equal_of_exchanged {locals outs : List (NdTensor α)} (present : locals ≠ []) {scatterDim gatherDim : Nat}
    (exchanged : allToAllTensor locals scatterDim gatherDim = some outs) :
    ∃ shape each, Equal locals scatterDim shape each := by
  have ranks : 0 < locals.length := length_pos_iff.mpr present
  obtain ⟨chunks, splits, received⟩ := Option.bind_eq_some_iff.mp exchanged
  have inside : ∀ x ∈ locals, scatterDim < x.shape.length := by
    intro x member
    obtain ⟨parts, -, split⟩ := forall₂_left (mapM_eq_some.mp splits) member
    exact inside_of_tensorSplit ranks split
  have lengths := (mapM_eq_some.mp received).length_eq
  rw [length_range] at lengths
  obtain ⟨x, indexed, members⟩ := exists_indexed present
  obtain ⟨y, indexed', -⟩ := exists_indexed (length_pos_iff.mp (lengths ▸ ranks))
  have inside' : ∀ source, scatterDim < (x source).shape.length := fun source => inside _ (members source)
  rw [← lengths] at indexed'
  generalize locals.length = n at ranks indexed indexed'
  rw [indexed, indexed'] at exchanged
  have fits : ∀ rank < n, ∀ source < n, (chunk (x source) n scatterDim (inside' source) rank).shape =
      (chunk (x rank) n scatterDim (inside' rank) 0).shape :=
    fun rank here => ((allToAll_eq_some inside').mp exchanged rank here).1
  have sizes : ∀ source < n, ∀ rank < n, (chunk (x source) n scatterDim (inside' source) rank).size scatterDim =
      (chunk (x 0) n scatterDim (inside' 0) 0).size scatterDim := by
    intro source there rank here
    rw [size, size, fits rank here source there, fits 0 ranks rank here]
  have each : ∀ source < n, (x source).size scatterDim = n * (chunk (x 0) n scatterDim (inside' 0) 0).size scatterDim :=
    fun source there => size_of_chunks ranks (inside' source) (sizes source there)
  refine ⟨(x 0).shape, (chunk (x 0) n scatterDim (inside' 0) 0).size scatterDim, ?_, inside' 0, ?_⟩
  · intro other member
    rw [indexed] at member
    obtain ⟨source, there, rfl⟩ := mem_map.mp member
    rw [mem_range] at there
    have alike : Alike scatterDim (x 0) (x source) := by
      have same := congrArg (fun shape => set shape scatterDim 0) (fits 0 ranks source there)
      simp only [chunk, piece_shape, set_set] at same
      exact same
    exact alike.same (inside' 0) (by rw [each source there, each 0 ranks])
  · rw [indexed, length_map, length_range]
    exact each 0 ranks

/-! ### Heads and sequence -/

section Undone
variable {x y : Nat → NdTensor α} {shape : List Nat} {ranks each scatterDim gatherDim : Nat}

theorem chunk_equal {x : NdTensor α} {sections dim : Nat} (present : 0 < sections) (inside : dim < x.shape.length)
    (size : x.size dim = sections * each) (rank : Nat) :
    chunk x sections dim inside rank = x.piece dim (rank * each) ((rank + 1) * each) inside := by
  rw [chunk, size, splitAt_equal present, splitAt_equal present]

section
variable (present : 0 < ranks) (shapes : ∀ rank, (x rank).shape = shape)
  (inside : ∀ rank, scatterDim < (x rank).shape.length) (size : shape.getD scatterDim 0 = ranks * each)
include present shapes inside size

theorem chunk_of_exchanged (exchanged : allToAllTensor ((range ranks).map x) scatterDim gatherDim = some ((range ranks).map y))
    {rank : Nat} (here : rank < ranks) : ∃ inside' : gatherDim < (y rank).shape.length,
      (y rank).size gatherDim = ranks * (shape.set scatterDim each).getD gatherDim 0 ∧
      ∀ source < ranks, chunk (y rank) ranks gatherDim inside' source = chunk (x source) ranks scatterDim (inside source) rank := by
  have joins := ((allToAll_eq_some inside).mp exchanged rank here).2
  have block : (rank + 1) * each ≤ ranks * each := Nat.mul_le_mul_right _ here
  have sent : ∀ chunked ∈ (range ranks).map (fun source => chunk (x source) ranks scatterDim (inside source) rank),
      chunked.shape = shape.set scatterDim each := by
    intro chunked member
    obtain ⟨source, -, rfl⟩ := mem_map.mp member
    have extent : (x source).size scatterDim = ranks * each := by rw [NdTensor.size, shapes, size]
    rw [chunk_equal present _ extent, piece_shape, extent, Nat.min_eq_left block, Nat.succ_mul, Nat.add_sub_cancel_left, shapes]
  obtain ⟨within, shape'⟩ := cat_uniform_shape sent joins
  rw [length_map, length_range] at shape'
  have inside' : gatherDim < (y rank).shape.length := by rw [shape', length_set]; exact within
  have extent : (y rank).size gatherDim = ranks * (shape.set scatterDim each).getD gatherDim 0 := by
    rw [NdTensor.size, shape', getD_set within]
  refine ⟨inside', extent, ?_⟩
  intro source there
  rw [chunk_equal present inside' extent]
  apply cat_uniform_piece sent joins inside'
  rw [getElem?_map, getElem?_range there, Option.map_some]

theorem exchanged_of_chunk (inside' : ∀ rank, gatherDim < (y rank).shape.length)
    (chunks : ∀ rank < ranks, ∀ source < ranks,
      chunk (y rank) ranks gatherDim (inside' rank) source = chunk (x source) ranks scatterDim (inside source) rank) :
    allToAllTensor ((range ranks).map y) gatherDim scatterDim = some ((range ranks).map x) := by
  have extent : ∀ rank, (x rank).size scatterDim = ranks * each := fun rank => by rw [NdTensor.size, shapes, size]
  have shape' : ∀ source, ∀ rank < ranks, (chunk (x source) ranks scatterDim (inside source) rank).shape = shape.set scatterDim each := by
    intro source rank here
    have block : (rank + 1) * each ≤ ranks * each := Nat.mul_le_mul_right _ here
    rw [chunk_equal present _ (extent source), piece_shape, extent, Nat.min_eq_left block, Nat.succ_mul, Nat.add_sub_cancel_left, shapes]
  apply (allToAll_eq_some inside').mpr
  intro rank here
  constructor
  · intro source there
    rw [chunks source there rank here, chunks rank here 0 present, shape' rank source there, shape' 0 rank here]
  · have received : (range ranks).map (fun source => chunk (y source) ranks gatherDim (inside' source) rank) =
        (range ranks).map (fun source => (x rank).piece scatterDim (source * each) ((source + 1) * each) (inside rank)) := by
      apply map_congr_left
      intro source there
      rw [chunks source (mem_range.mp there) rank here, chunk_equal present _ (extent rank)]
    rw [received]
    have grows : ∀ i, i * each ≤ (i + 1) * each := fun i => Nat.mul_le_mul_right _ (Nat.le_succ i)
    exact cat_pieces (inside rank) grows (Nat.zero_mul _) present (Nat.le_of_eq (extent rank))

end

end Undone

theorem rest_of_next {ranks each unpadded : Nat} (more : ranks * each < unpadded + ranks) (fewer : unpadded < ranks * each)  :
    ranks - unpadded % ranks = ranks * each - unpadded := by
  obtain ⟨each, rfl⟩ : ∃ before, each = before + 1 := by
    cases each with
    | zero => rw [Nat.mul_zero] at fewer; cases fewer
    | succ before => exact ⟨before, rfl⟩
  rw [Nat.mul_succ] at more fewer ⊢
  have rest : unpadded % ranks = unpadded - ranks * each := by
    rw [← Nat.mod_eq_of_lt (a := unpadded - ranks * each) (b := ranks) (by omega), Nat.sub_mul_mod (by omega)]
  rw [rest]
  omega

theorem unpadTensor_eq {x : NdTensor α} {dim unpadded : Nat} (inside : dim < x.shape.length) (fewer : unpadded < x.size dim) :
    unpadTensor x dim ((x.size dim : Int) - unpadded) = some (x.piece dim 0 unpadded inside) := by
  have stop : sliceStop (x.size dim) (-((x.size dim : Int) - unpadded)) = unpadded := by
    rw [sliceStop, if_pos (by omega)]
    omega
  rw [unpadTensor, stop, narrow_inside inside]

/-- A sequence that was gathered: the ranks' tensors before and after. -/
structure Gathered (locals gathered : List (NdTensor α)) (seqDim headDim : Nat) where
  before : Nat → NdTensor α
  after : Nat → NdTensor α
  shape : List Nat
  each : Nat
  locals_eq : locals = (List.range locals.length).map before
  gathered_eq : gathered = (List.range locals.length).map after
  present : 0 < locals.length
  shapes : ∀ rank, (before rank).shape = shape
  size : shape.getD headDim 0 = locals.length * each
  heads : ∀ rank, headDim < (before rank).shape.length
  inside : ∀ rank, seqDim < (after rank).shape.length
  sequence : ∀ rank, (after rank).size seqDim = locals.length * (shape.set headDim each).getD seqDim 0
  chunks : ∀ rank < locals.length, ∀ source < locals.length,
    chunk (after rank) locals.length seqDim (inside rank) source = chunk (before source) locals.length headDim (heads source) rank

theorem exists_gathered {locals gathered : List (NdTensor α)} {seqDim headDim : Nat} (present : locals ≠ [])
    (exchanged : allToAllTensor locals headDim seqDim = some gathered) : Nonempty (Gathered locals gathered seqDim headDim) := by
  have ranks : 0 < locals.length := length_pos_iff.mpr present
  obtain ⟨shape, each, equal⟩ := equal_of_exchanged present exchanged
  obtain ⟨before, indexed, members⟩ := exists_indexed present
  have lengths : gathered.length = locals.length := by
    obtain ⟨chunks, -, received⟩ := Option.bind_eq_some_iff.mp exchanged
    rw [← (mapM_eq_some.mp received).length_eq, length_range]
  obtain ⟨after, indexed', members'⟩ := exists_indexed (length_pos_iff.mp (lengths ▸ ranks))
  rw [lengths] at indexed'
  have shapes : ∀ rank, (before rank).shape = shape := fun rank => equal.shapes _ (members rank)
  have heads : ∀ rank, headDim < (before rank).shape.length := fun rank => by
    rw [shapes rank]
    exact equal.inside
  have joined : allToAllTensor ((range locals.length).map before) headDim seqDim = some ((range locals.length).map after) := by
    rw [← indexed, ← indexed']
    exact exchanged
  have ranked : ∀ rank, ∃ inside : seqDim < (after rank).shape.length,
      (after rank).size seqDim = locals.length * (shape.set headDim each).getD seqDim 0 := by
    intro rank
    have member := members' rank
    rw [indexed'] at member
    obtain ⟨other, here, same⟩ := mem_map.mp member
    obtain ⟨inside, size, -⟩ := chunk_of_exchanged ranks shapes heads equal.size joined (mem_range.mp here)
    rw [← same]
    exact ⟨inside, size⟩
  exact ⟨{
    before, after, shape, each, heads, shapes
    locals_eq := indexed
    gathered_eq := indexed'
    present := ranks
    size := equal.size
    inside := fun rank => (ranked rank).1
    sequence := fun rank => (ranked rank).2
    chunks := fun rank here => (chunk_of_exchanged ranks shapes heads equal.size joined here).2.2 }⟩

section Gathered
variable {locals gathered : List (NdTensor α)} {seqDim headDim : Nat} (held : Gathered locals gathered seqDim headDim)
include held

theorem scattered_back : allToAllTensor gathered seqDim headDim = some locals := by
  have exchanged := exchanged_of_chunk held.present held.shapes held.heads held.size held.inside held.chunks
  rwa [← held.locals_eq, ← held.gathered_eq] at exchanged

theorem Gathered.extent (different : seqDim ≠ headDim) (rank source : Nat) :
    (held.after rank).size seqDim = locals.length * (held.before source).size seqDim := by
  rw [held.sequence, NdTensor.size, held.shapes, getD_eq_getElem?_getD, getElem?_set_ne different.symm,
    ← getD_eq_getElem?_getD]

theorem Gathered.named {rank : Nat} (here : rank < locals.length) : locals[rank]? = some (held.before rank) := by
  refine (congrArg (·[rank]?) held.locals_eq).trans ?_
  rw [getElem?_map, getElem?_range here, Option.map_some]

theorem Gathered.within (rank : Nat) : seqDim < (held.before rank).shape.length := by
  have lengths := congrArg (fun x : NdTensor α => x.shape.length) (held.chunks 0 held.present 0 held.present)
  simp only [chunk, piece_shape, length_set] at lengths
  have inside := held.inside 0
  rw [lengths, held.shapes] at inside
  rw [held.shapes]
  exact inside

end Gathered

section Sequence
variable [Zero α]

/-- A tensor with zeros from a bound of a dimension on. -/
def zeroFrom (x : NdTensor α) (dim bound : Nat) : NdTensor α :=
  if inside : dim < x.shape.length then x.fillFrom dim bound 0 inside else x

/-- What the ranks have of a sequence with zeros for its padding. -/
def zeroPadding (locals : List (NdTensor α)) (seqDim unpadded : Nat) : List (NdTensor α) :=
  locals.mapIdx (fun rank x => zeroFrom x seqDim (unpadded - rank * x.size seqDim))

theorem padTensor_piece {x : NdTensor α} {dim unpadded : Nat} (inside : dim < x.shape.length) (fewer : unpadded ≤ x.size dim) :
    padTensor (x.piece dim 0 unpadded inside) dim (x.size dim - unpadded) = some (x.fillFrom dim unpadded 0 inside) := by
  rw [padTensor, piece_shape, set_set]
  exact cat_full inside fewer 0

section Gathered
variable {locals gathered : List (NdTensor α)} {seqDim headDim : Nat} (held : Gathered locals gathered seqDim headDim)
include held

theorem zeros_scattered_back (different : seqDim ≠ headDim) (unpadded : Nat) :
    allToAllTensor ((range locals.length).map (fun rank => (held.after rank).fillFrom seqDim unpadded 0 (held.inside rank)))
      seqDim headDim = some (zeroPadding locals seqDim unpadded) := by
  have extents : ∀ rank, (held.before rank).size seqDim = held.shape.getD seqDim 0 := fun rank => by
    rw [NdTensor.size, held.shapes]
  let zeros (rank : Nat) := (held.before rank).fillFrom seqDim (unpadded - rank * held.shape.getD seqDim 0) 0 (held.within rank)
  have same : zeroPadding locals seqDim unpadded = (range locals.length).map zeros := by
    apply ext_getElem?
    intro rank
    rw [zeroPadding, getElem?_mapIdx, getElem?_map]
    by_cases here : rank < locals.length
    · rw [held.named here, getElem?_range here, Option.map_some, Option.map_some, zeroFrom, dif_pos (held.within rank), extents]
    · rw [getElem?_eq_none (Nat.le_of_not_lt here), getElem?_eq_none (by rw [length_range]; omega)]
      rfl
  have shapes : ∀ rank, (zeros rank).shape = held.shape := held.shapes
  have heads : ∀ rank, headDim < (zeros rank).shape.length := held.heads
  have padded : ∀ rank, seqDim < ((held.after rank).fillFrom seqDim unpadded 0 (held.inside rank)).shape.length := held.inside
  rw [same]
  refine exchanged_of_chunk held.present shapes heads held.size padded ?_
  intro rank here source there
  have extent := held.extent different rank source
  have chunks := held.chunks rank here source there
  rw [chunk_equal held.present (held.inside rank) extent] at chunks
  have gathers : chunk ((held.after rank).fillFrom seqDim unpadded 0 (held.inside rank)) locals.length seqDim (padded rank) source =
      ((held.after rank).piece seqDim (source * (held.before source).size seqDim) ((source + 1) * (held.before source).size seqDim)
        (held.inside rank)).fillFrom seqDim (unpadded - source * (held.before source).size seqDim) 0
          (by rw [piece_shape, length_set]; exact held.inside rank) := by
    rw [chunk_equal held.present (padded rank) extent]
    exact piece_fillFrom (held.inside rank) (padded rank) _
  have scatters : chunk (zeros source) locals.length headDim (heads source) rank =
      (chunk (held.before source) locals.length headDim (held.heads source) rank).fillFrom seqDim
        (unpadded - source * held.shape.getD seqDim 0) 0 (by rw [chunk, piece_shape, length_set]; exact held.within source) :=
    piece_fillFrom_other different.symm (held.within source) (held.heads source) (heads source) _
  rw [gathers, scatters, ← extents source]
  exact fillFrom_congr chunks _ _

end Gathered

/-- Every rank has its part of the sequence again. Where the sequence was padded to the next
multiple of the ranks, and unpadded in between, the padding is zeros. -/
theorem heads_seq_undone {locals middle : List (NdTensor α)} {seqDim headDim unpaddedDimSize : Nat} (different : seqDim ≠ headDim)
    (gathered : gatherSeqScatterHeads true locals seqDim headDim unpaddedDimSize = some middle) :
    (locals.length ∣ unpaddedDimSize → gatherHeadsScatterSeq true middle headDim seqDim = some locals) ∧
    (¬ locals.length ∣ unpaddedDimSize → (∀ x ∈ locals, unpaddedDimSize ≤ locals.length * x.size seqDim ∧
        locals.length * x.size seqDim < unpaddedDimSize + locals.length) →
      gatherHeadsScatterSeq true middle headDim seqDim = some (zeroPadding locals seqDim unpaddedDimSize)) := by
  by_cases present : locals = []
  · subst present
    have exchanged : allToAllTensor ([] : List (NdTensor α)) headDim seqDim = some [] := rfl
    rw [gatherSeqScatterHeads, if_pos rfl, exchanged] at gathered
    have empty : middle = [] := by
      rw [Option.bind_eq_bind, Option.bind_some] at gathered
      split at gathered
      · exact (Option.some.inj gathered).symm
      · exact (Option.some.inj gathered).symm
    subst empty
    exact ⟨fun _ => rfl, fun _ _ => rfl⟩
  · rw [gatherSeqScatterHeads, if_pos rfl] at gathered
    obtain ⟨after, exchanged, gathered⟩ := Option.bind_eq_some_iff.mp gathered
    obtain ⟨held⟩ := exists_gathered present exchanged
    have extent := held.extent different
    have length : after.length = locals.length := by rw [held.gathered_eq, List.length_map, List.length_range]
    constructor
    · intro multiple
      rw [if_neg (fun cut => cut.2 (Nat.mod_eq_zero_of_dvd multiple))] at gathered
      obtain rfl := Option.some.inj gathered
      have whole : after.mapM (fun x => if x.size seqDim % after.length ≠ 0 then
          padTensor x seqDim (after.length - x.size seqDim % after.length) else some x) = some (after.map id) := by
        apply mapM_some
        intro x member
        rw [held.gathered_eq] at member
        obtain ⟨rank, -, rfl⟩ := List.mem_map.mp member
        rw [length, extent rank rank, Nat.mul_mod_right, if_neg (fun uneven => uneven rfl), id]
      rw [gatherHeadsScatterSeq, if_pos rfl, whole, List.map_id]
      exact scattered_back held
    · intro uneven bounds
      have used : unpaddedDimSize ≠ 0 ∧ unpaddedDimSize % locals.length ≠ 0 :=
        ⟨fun none => uneven (none ▸ Nat.dvd_zero _), fun whole => uneven (Nat.dvd_of_mod_eq_zero whole)⟩
      have fits : ∀ rank, unpaddedDimSize < (held.after rank).size seqDim ∧
          locals.length - unpaddedDimSize % locals.length = (held.after rank).size seqDim - unpaddedDimSize := by
        intro rank
        have bound := bounds _ (List.mem_of_getElem? (held.named held.present))
        have strict : unpaddedDimSize < locals.length * (held.before 0).size seqDim :=
          Nat.lt_of_le_of_ne bound.1 (fun same => uneven (same ▸ Nat.dvd_mul_right _ _))
        rw [extent rank 0]
        exact ⟨strict, rest_of_next bound.2 strict⟩
      have cut : after.mapM (fun x => unpadTensor x seqDim ((x.size seqDim : Int) - unpaddedDimSize)) =
          some ((List.range locals.length).map (fun rank => (held.after rank).piece seqDim 0 unpaddedDimSize (held.inside rank))) := by
        refine (congrArg (List.mapM _) held.gathered_eq).trans ?_
        rw [List.mapM_map]
        exact mapM_some _ (fun rank _ => unpadTensor_eq (held.inside rank) (fits rank).1)
      rw [if_pos used, cut] at gathered
      obtain rfl := Option.some.inj gathered
      have filled : ((List.range locals.length).map
            (fun rank => (held.after rank).piece seqDim 0 unpaddedDimSize (held.inside rank))).mapM
          (fun x => if x.size seqDim % locals.length ≠ 0 then
            padTensor x seqDim (locals.length - x.size seqDim % locals.length) else some x) =
          some ((List.range locals.length).map (fun rank => (held.after rank).fillFrom seqDim unpaddedDimSize 0 (held.inside rank))) := by
        rw [List.mapM_map]
        apply mapM_some
        intro rank _
        have size : ((held.after rank).piece seqDim 0 unpaddedDimSize (held.inside rank)).size seqDim = unpaddedDimSize := by
          rw [piece_size, Nat.min_eq_left (Nat.le_of_lt (fits rank).1), Nat.sub_zero]
        rw [Function.comp_apply, size, if_pos used.2, (fits rank).2]
        exact padTensor_piece (held.inside rank) (Nat.le_of_lt (fits rank).1)
      rw [gatherHeadsScatterSeq, if_pos rfl, List.length_map, List.length_range, filled]
      exact zeros_scattered_back held different unpaddedDimSize

end Sequence

/-! ### A function of every token -/

variable {β : Type}

/-- A function of a token and its position, with results of one shape. -/
structure PerToken (α β : Type) where
  features : List Nat
  value : α → Option Nat → NdTensor β
  shaped : ∀ token position, (value token position).shape = features

def tokens (inputIds : NdTensor α) (positionIds : Option (NdTensor Nat)) : List (α × Option Nat) :=
  inputIds.data.mapIdx (fun i token => (token, positionIds.bind (fun positions => positions.data[i]?)))

theorem PerToken.width (f : PerToken α β) (token : α × Option Nat) : (f.value token.1 token.2).data.length = f.features.prod := by
  rw [(f.value token.1 token.2).sized, f.shaped]

/-- The results for the tokens of a row, behind some dimensions of size one. -/
def PerToken.apply (f : PerToken α β) (lead : Nat) (inputIds : NdTensor α) (positionIds : Option (NdTensor Nat)) : NdTensor β where
  shape := List.replicate lead 1 ++ inputIds.data.length :: f.features
  data := (tokens inputIds positionIds).flatMap (fun token => (f.value token.1 token.2).data)
  sized := by
    rw [List.length_flatMap, List.map_congr_left (fun token _ => f.width token), List.map_const', List.sum_replicate,
      tokens, List.length_mapIdx, smul_eq_mul, List.prod_append, List.prod_replicate, one_pow, one_mul, List.prod_cons]

section Apply
variable (f : PerToken α β) (lead : Nat) {inputIds inputIds' : NdTensor α} {positionIds positionIds' : Option (NdTensor Nat)}

theorem apply_shape : (f.apply lead inputIds positionIds).shape = replicate lead 1 ++ inputIds.data.length :: f.features := rfl

theorem apply_inside : lead < (f.apply lead inputIds positionIds).shape.length := by
  rw [apply_shape, length_append, length_replicate, length_cons]
  omega

theorem apply_shape_getD : (f.apply lead inputIds positionIds).size lead = inputIds.data.length := by
  rw [NdTensor.size, apply_shape, getD_eq_getElem?_getD, getElem?_append_right (by rw [length_replicate]),
    length_replicate, Nat.sub_self, getElem?_cons_zero, Option.getD_some]

section
variable {start stop : Nat} (ids : inputIds'.data = slice inputIds.data start stop)
  (positions : positionIds'.map NdTensor.data = positionIds.map (fun positions => slice positions.data start stop))
include start stop ids positions

theorem tokens_slice : tokens inputIds' positionIds' = slice (tokens inputIds positionIds) start stop := by
  apply ext_getElem?
  intro i
  rw [slice_getElem?, tokens, tokens, getElem?_mapIdx, getElem?_mapIdx, ids, slice_getElem?]
  by_cases inside : start + i < stop
  · have place : (positionIds'.bind fun positions => positions.data[i]?) =
        positionIds.bind fun positions => positions.data[start + i]? := by
      have bind := congrArg (Option.bind · (fun data => data[i]?)) positions
      simp only [Option.bind_map, Function.comp_def, slice_getElem?, if_pos inside] at bind
      exact bind
    rw [if_pos inside, if_pos inside, place]
  · rw [if_neg inside, if_neg inside]
    rfl

theorem apply_slice :
    f.apply lead inputIds' positionIds' = (f.apply lead inputIds positionIds).piece lead start stop (apply_inside f lead) := by
  have one : outer (f.apply lead inputIds positionIds).shape lead = 1 := by
    rw [outer, apply_shape, take_left' length_replicate, prod_replicate, one_pow]
  have blocks : NdTensor.inner (f.apply lead inputIds positionIds).shape lead = f.features.prod := by
    rw [NdTensor.inner, apply_shape, drop_append, length_replicate, Nat.add_sub_cancel_left, drop_succ_cons, drop_zero,
      drop_eq_nil_of_le (by rw [length_replicate]; omega), nil_append]
  apply NdTensor.ext
  · rw [piece_shape, apply_shape_getD, apply_shape, apply_shape, ids, slice_length, set_append_right _ _ (by simp)]
    simp
  · rw [piece_data _ one, blocks]
    exact (congrArg (flatMap _) (tokens_slice ids positions)).trans
      (slice_flatMap (fun token _ => f.width token) start stop).symm

end

end Apply

/-! ### Padded rows -/

def Row (length : Nat) (x : NdTensor α) : Prop := x.shape = [1, length]

theorem row_piece {x : NdTensor α} {length start stop : Nat} (row : Row length x) (inside : 1 < x.shape.length) :
    (x.piece 1 start stop inside).data = slice x.data start stop := by
  have shape : x.shape = [1, length] := row
  have one : outer x.shape 1 = 1 := by rw [shape]; rfl
  have blocks : NdTensor.inner x.shape 1 = 1 := by rw [shape]; rfl
  rw [piece_data inside one, blocks, Nat.mul_one, Nat.mul_one]

theorem sliceInputTensor_row [Zero α] {x : NdTensor α} {ranks each : Nat} (present : 0 < ranks) (row : Row (ranks * each) x)
    (worldSize rank : Nat) : ∃ part, sliceInputTensor ⟨some (ranks, rank), worldSize⟩ x 1 false = some part ∧
      part.data = slice x.data (rank * each) ((rank + 1) * each) := by
  have shape : x.shape = [1, ranks * each] := row
  have inside : 1 < x.shape.length := by rw [shape]; exact Nat.one_lt_two
  have parts : x.size 1 / ranks = each := by
    rw [NdTensor.size, shape]
    exact Nat.mul_div_cancel_left _ present
  refine ⟨x.piece 1 (rank * each) ((rank + 1) * each) inside, ?_, row_piece row inside⟩
  simp only [sliceInputTensor, Process.groupSize, getUlyssesSequenceParallelRank, Option.elim_some, Bool.false_eq_true, false_and,
    if_false, Option.bind_eq_bind, Option.bind_some, parts]
  exact narrow_inside inside _ _

structure Extends (x padded : NdTensor α) (length extra : Nat) : Prop where
  row : Row (length + extra) padded
  start : slice padded.data 0 length = x.data

theorem extends_cat {x filler : NdTensor α} {length extra : Nat} (row : Row length x) (fills : Row extra filler) :
    ∃ padded, cat [x, filler] 1 = some padded ∧ Extends x padded length extra := by
  have shape : x.shape = [1, length] := row
  have fillerShape : filler.shape = [1, extra] := fills
  have inside : 1 < x.shape.length := by rw [shape]; exact Nat.one_lt_two
  have alike : ∀ y ∈ [filler], Alike 1 x y := by
    intro y member
    rw [mem_singleton.mp member, Alike, shape, fillerShape]
    rfl
  have joins := cat_eq_some inside alike
  have total : Row (length + extra) (joined x [filler] 1 inside alike) := by
    rw [Row, joined_shape, map_cons, map_singleton, sum_cons, sum_singleton, NdTensor.size, NdTensor.size, shape,
      fillerShape]
    rfl
  have inside' : 1 < (joined x [filler] 1 inside alike).shape.length := by rw [joined_shape, length_set]; exact inside
  refine ⟨_, joins, total, ?_⟩
  rw [← row_piece total inside']
  have first := piece_cat_first joins inside'
  rw [NdTensor.size, shape] at first
  exact congrArg NdTensor.data first

theorem dvd_padded {ranks : Nat} (present : 0 < ranks) (length : Nat) : ranks ∣ length + (ranks - length % ranks) % ranks := by
  have rest := Nat.mod_lt length present
  have whole := Nat.div_add_mod length ranks
  by_cases even : length % ranks = 0
  · rw [even, Nat.sub_zero, Nat.mod_self, Nat.add_zero]
    exact Nat.dvd_of_mod_eq_zero even
  · rw [Nat.mod_eq_of_lt (by omega)]
    refine ⟨length / ranks + 1, ?_⟩
    rw [Nat.mul_succ]
    generalize ranks * (length / ranks) = blocks at *
    omega

theorem Extends.refl {x : NdTensor α} {length : Nat} (row : Row length x) : Extends x x length 0 := by
  have shape : x.shape = [1, length] := row
  refine ⟨row, slice_full _ _ ?_⟩
  rw [x.sized, shape]
  simp

theorem padPositions_row {positions : NdTensor Nat} {length : Nat} (row : Row length positions) (extra : Nat) :
    ∃ padded, padPositions positions extra = some padded ∧ Extends positions padded length extra := by
  have shape : positions.shape = [1, length] := row
  have fills : Row extra (padPosIds positions extra) := by
    rw [Row, padPosIds, if_neg (by simp [shape])]
  rw [padPositions, shape]
  exact extends_cat row fills

theorem ulyssesPad_row {ranks length : Nat} (present : 0 < ranks) {inputIds : NdTensor α} {positionIds : Option (NdTensor Nat)}
    (row : Row length inputIds) (aligned : ∀ positions ∈ positionIds, Row length positions) (padValue : α) :
    ∃ padded positions extra, ulyssesPad inputIds positionIds ranks padValue = some (padded, positions, extra) ∧
      ranks ∣ length + extra ∧ Extends inputIds padded length extra ∧
      Option.Rel (fun before after => Extends before after length extra) positionIds positions := by
  have shape : inputIds.shape = [1, length] := row
  have asserted : ∀ positions ∈ positionIds, positions.shape.reverse[1]? = some 1 ∧
      positions.shape.getLast? = inputIds.shape.getLast? := by
    intro positions member
    have shape' : positions.shape = [1, length] := aligned positions member
    rw [shape, shape']
    exact ⟨rfl, rfl⟩
  have unchanged : Option.Rel (fun before after => Extends before after length 0) positionIds positionIds := by
    cases positionIds with
    | none => exact .none
    | some positions => exact .some (.refl (aligned positions rfl))
  have multiple := dvd_padded present length
  rw [ulyssesPad, if_pos asserted]
  by_cases single : ranks ≤ 1
  · have one : ranks = 1 := by omega
    exact ⟨inputIds, positionIds, 0, if_pos single, one ▸ Nat.one_dvd _, .refl row, unchanged⟩
  · rw [if_neg single, shape]
    by_cases uneven : 0 < (ranks - length % ranks) % ranks
    · have fills : Row ((ranks - length % ranks) % ranks) (full [1, (ranks - length % ranks) % ranks] padValue) := rfl
      obtain ⟨padded, joins, extended⟩ := extends_cat row fills
      obtain ⟨positions, padding, related⟩ : ∃ positions,
          positionIds.mapM (padPositions · ((ranks - length % ranks) % ranks)) = some positions ∧
            Option.Rel (fun before after => Extends before after length ((ranks - length % ranks) % ranks)) positionIds positions := by
        cases positionIds with
        | none => exact ⟨none, rfl, .none⟩
        | some before =>
          obtain ⟨after, padding, extended⟩ := padPositions_row (aligned before rfl) ((ranks - length % ranks) % ranks)
          refine ⟨some after, ?_, .some extended⟩
          rw [Option.mapM_some, padding]
          rfl
      refine ⟨padded, positions, (ranks - length % ranks) % ranks, ?_, multiple, extended, related⟩
      simp only [if_pos uneven]
      rw [set_cons_succ, set_cons_zero, joins, padding]
      rfl
    · have none_added : (ranks - length % ranks) % ranks = 0 := Nat.eq_zero_of_not_pos uneven
      refine ⟨inputIds, positionIds, 0, ?_, none_added ▸ multiple, .refl row, unchanged⟩
      simp only [none_added, if_neg (Nat.lt_irrefl 0)]

/-! ### Gathered rows -/

theorem split_joined {locals : List (NdTensor β)} {shape : List Nat} (present : locals ≠ []) (shapes : ∀ x ∈ locals, x.shape = shape)
    (entries : 0 < shape.getD 0 0) {out : NdTensor β} (joins : cat locals 0 = some out) : split out (shape.getD 0 0) 0 = some locals := by
  obtain ⟨inside, outShape⟩ := cat_uniform_shape shapes joins
  have inside' : 0 < out.shape.length := by rw [outShape, length_set]; exact inside
  have size : out.size 0 = locals.length * shape.getD 0 0 := by rw [NdTensor.size, outShape, getD_set inside]
  have count : max 1 ((out.size 0 + shape.getD 0 0 - 1) / shape.getD 0 0) = locals.length := by
    have one : 1 ≤ locals.length := length_pos_iff.mpr present
    have parts : (out.size 0 + shape.getD 0 0 - 1) / shape.getD 0 0 = locals.length := by
      apply Nat.div_eq_of_lt_le
      · rw [size]
        omega
      · rw [size, Nat.succ_mul]
        omega
    rw [parts, Nat.max_eq_right one]
  obtain ⟨x, indexed, -⟩ := exists_indexed present
  rw [split, if_neg (Nat.pos_iff_ne_zero.mp entries), count]
  refine (mapM_some x ?_).trans (congrArg some indexed.symm)
  intro i member
  rw [mem_range] at member
  have named : locals[i]? = some (x i) := by
    refine (congrArg (·[i]?) indexed).trans ?_
    rw [getElem?_map, getElem?_range member, Option.map_some]
  rw [narrow_inside inside', cat_uniform_piece shapes joins inside' named]

/-- Gathering along a dimension, when the first dimension has entries or is gathered along. -/
theorem gather_eq_cat {locals : List (NdTensor β)} {shape : List Nat} {dim : Nat} {whole : NdTensor β} (present : locals ≠ [])
    (shapes : ∀ x ∈ locals, x.shape = shape) (leading : 0 < shape.getD 0 0 ∨ dim = 0) (joins : cat locals dim = some whole) :
    gather locals dim = some whole := by
  have ranked : 0 < shape.length := Nat.lt_of_le_of_lt (Nat.zero_le dim) (cat_uniform_shape shapes joins).1
  obtain ⟨out, joined⟩ := cat_uniform shapes present ranked
  obtain ⟨own, rest, split_off⟩ := exists_cons_of_ne_nil present
  have first : locals.head? = some own := by rw [split_off, head?_cons]
  have ownShape : own.size 0 = shape.getD 0 0 := by
    rw [NdTensor.size, shapes own (by rw [split_off]; exact mem_cons_self)]
  have gathered : allGatherTensor locals = some out := by
    rw [allGatherTensor, if_pos, joined]
    intro x member y member'
    rw [shapes x member, shapes y member']
  rw [gather, first]
  simp only [Option.bind_eq_bind, Option.bind_some, gathered, ownShape]
  by_cases entries : 0 < shape.getD 0 0
  · rw [split_joined present shapes entries joined, Option.bind_some, joins]
  · have along : dim = 0 := leading.resolve_left entries
    have empty : shape.getD 0 0 = 0 := Nat.eq_zero_of_not_pos entries
    subst along
    obtain ⟨-, outShape⟩ := cat_uniform_shape shapes joined
    have size : out.size 0 = 0 := by rw [NdTensor.size, outShape, getD_set ranked, empty, Nat.mul_zero]
    have inside : 0 < out.shape.length := by rw [outShape, length_set]; exact ranked
    rw [split, if_pos empty, if_pos size, Option.bind_some, cat_single, if_pos inside, ← joined, joins]

theorem slice_inputs [Zero α] (f : PerToken α β) (lead : Nat) {ranks each length extra : Nat} (present : 0 < ranks)
    (total : length + extra = ranks * each) {inputIds padded : NdTensor α} {positionIds positions : Option (NdTensor Nat)}
    {padValue : α} (padding : ulyssesPad inputIds positionIds ranks padValue = some (padded, positions, extra))
    (row : Row (length + extra) padded) (aligned : ∀ position ∈ positions, Row (length + extra) position) (skip : Bool)
    (worldSize rank : Nat) :
    ∃ own, ulyssesPadAndSliceInputs ⟨some (ranks, rank), worldSize⟩ inputIds positionIds ranks skip padValue = some own ∧
      own.2.2 = extra ∧ f.apply lead own.1 (if skip then none else own.2.1) =
        (f.apply lead padded (if skip then none else positions)).piece lead (rank * each) ((rank + 1) * each) (apply_inside f lead) := by
  rw [total] at row aligned
  obtain ⟨part, slices, data⟩ := sliceInputTensor_row present row worldSize rank
  cases skip with
  | true =>
    refine ⟨(part, positions, extra), ?_, rfl, apply_slice f lead data rfl⟩
    simp only [ulyssesPadAndSliceInputs, padding, Option.bind_eq_bind, Option.bind_some, slices, if_true]
  | false =>
    cases positions with
    | none =>
      refine ⟨(part, none, extra), ?_, rfl, apply_slice f lead data rfl⟩
      simp only [ulyssesPadAndSliceInputs, padding, Option.bind_eq_bind, Option.bind_some, slices]
      rfl
    | some positions =>
      obtain ⟨position, slices', data'⟩ := sliceInputTensor_row present (aligned positions rfl) worldSize rank
      refine ⟨(part, some position, extra), ?_, rfl, apply_slice f lead data (congrArg some data')⟩
      simp only [ulyssesPadAndSliceInputs, padding, Option.bind_eq_bind, Option.bind_some, slices, Bool.false_eq_true, if_false,
        Option.mapM_some, slices']
      rfl

/-- Every rank has the function of the row: of its part of the padded row it was applied to, the
parts are gathered and the padding is removed. -/
theorem row_gathered [Zero α] (f : PerToken α β) (lead : Nat) {ranks length : Nat} (present : 0 < ranks) {inputIds : NdTensor α}
    (row : inputIds.shape = [1, length]) {positionIds : Option (NdTensor Nat)}
    (aligned : ∀ positions ∈ positionIds, positions.shape = [1, length]) (skip : Bool) (padValue : α) (worldSize : Nat) :
    ∃ sliced, (range ranks).mapM (fun rank =>
        ulyssesPadAndSliceInputs ⟨some (ranks, rank), worldSize⟩ inputIds positionIds ranks skip padValue) = some sliced ∧
      ∀ own ∈ sliced, gatherOutputsAndUnpad true
          (sliced.map (fun slices => f.apply lead slices.1 (if skip then none else slices.2.1))) lead (some lead) own.2.2 =
        some (sliced.map (fun _ => f.apply lead inputIds (if skip then none else positionIds))) := by
  obtain ⟨padded, positions, extra, padding, ⟨each, total⟩, ids, related⟩ := ulyssesPad_row present row aligned padValue
  have extended : ∀ position ∈ positions, Row (length + extra) position := by
    cases related with
    | none => simp
    | some one =>
      intro position member
      cases member
      exact one.row
  have ranked := slice_inputs f lead present total padding ids.row extended skip worldSize
  choose own sliced added applied using ranked
  let whole := f.apply lead padded (if skip then none else positions)
  have length' : padded.data.length = ranks * each := by
    have shape : padded.shape = [1, length + extra] := ids.row
    rw [padded.sized, shape, total]
    simp
  have size : whole.size lead = ranks * each := (apply_shape_getD f lead).trans length'
  refine ⟨(range ranks).map own, mapM_some own (fun rank _ => sliced rank), ?_⟩
  intro one member
  obtain ⟨rank, -, rfl⟩ := mem_map.mp member
  have parts : ((range ranks).map own).map (fun slices => f.apply lead slices.1 (if skip then none else slices.2.1)) =
      (range ranks).map (fun rank => whole.piece lead (rank * each) ((rank + 1) * each) (apply_inside f lead)) := by
    rw [map_map]
    exact map_congr_left (fun rank _ => applied rank)
  have gathered : gather ((range ranks).map
      (fun rank => whole.piece lead (rank * each) ((rank + 1) * each) (apply_inside f lead))) lead = some whole := by
    have shapes : ∀ x ∈ (range ranks).map
        (fun rank => whole.piece lead (rank * each) ((rank + 1) * each) (apply_inside f lead)), x.shape = whole.shape.set lead each := by
      intro x member
      obtain ⟨rank, here, rfl⟩ := mem_map.mp member
      have block : (rank + 1) * each ≤ ranks * each := Nat.mul_le_mul_right _ (mem_range.mp here)
      rw [piece_shape, size, Nat.min_eq_left block, Nat.succ_mul, Nat.add_sub_cancel_left]
    have leading : 0 < (whole.shape.set lead each).getD 0 0 ∨ lead = 0 := by
      cases lead with
      | zero => exact Or.inr rfl
      | succ lead => exact Or.inl Nat.one_pos
    have some_rank : (range ranks).map
        (fun rank => whole.piece lead (rank * each) ((rank + 1) * each) (apply_inside f lead)) ≠ [] := by
      rw [ne_eq, map_eq_nil_iff, range_eq_nil]
      omega
    have grows : ∀ i, i * each ≤ (i + 1) * each := fun i => Nat.mul_le_mul_right _ (Nat.le_succ i)
    exact gather_eq_cat some_rank shapes leading
      (cat_pieces (apply_inside f lead) grows (Nat.zero_mul _) present (Nat.le_of_eq size))
  have trimmed : whole.piece lead 0 length (apply_inside f lead) = f.apply lead inputIds (if skip then none else positionIds) := by
    refine (apply_slice f lead ids.start.symm ?_).symm
    cases skip with
    | true => rfl
    | false =>
      cases related with
      | none => rfl
      | some one => exact congrArg some one.start.symm
  rw [gatherOutputsAndUnpad, if_pos rfl, parts, gathered, added]
  simp only [Option.bind_eq_bind, Option.bind_some, map_map, Function.comp_def]
  by_cases exact_length : extra = 0
  · have same : whole = f.apply lead inputIds (if skip then none else positionIds) := by
      rw [← trimmed, piece_whole (apply_inside f lead) (by rw [size, ← total]; omega)]
    rw [if_pos exact_length, same]
  · have stop : sliceStop (whole.size lead) (-(extra : Int)) = length := by
      rw [sliceStop, if_pos (by omega), size, ← total]
      omega
    rw [if_neg exact_length, unpadTensor, stop, narrow_inside (apply_inside f lead), trimmed, Option.bind_some]

/-- Both ways of cutting a sequence are undone in a group. -/
theorem sequence_restored [Zero α] :
    (∀ (f : PerToken α β) (lead ranks length : Nat) (inputIds : NdTensor α) (positionIds : Option (NdTensor Nat)) (skip : Bool)
        (padValue : α) (worldSize : Nat), 0 < ranks → inputIds.shape = [1, length] →
      (∀ positions ∈ positionIds, positions.shape = [1, length]) →
      ∃ sliced, (List.range ranks).mapM (fun rank =>
          ulyssesPadAndSliceInputs ⟨some (ranks, rank), worldSize⟩ inputIds positionIds ranks skip padValue) = some sliced ∧
        ∀ own ∈ sliced, gatherOutputsAndUnpad true
            (sliced.map (fun slices => f.apply lead slices.1 (if skip then none else slices.2.1))) lead (some lead) own.2.2 =
          some (sliced.map (fun _ => f.apply lead inputIds (if skip then none else positionIds)))) ∧
    (∀ (locals middle : List (NdTensor α)) (seqDim headDim unpaddedDimSize : Nat), seqDim ≠ headDim →
      gatherSeqScatterHeads true locals seqDim headDim unpaddedDimSize = some middle →
      (locals.length ∣ unpaddedDimSize → gatherHeadsScatterSeq true middle headDim seqDim = some locals) ∧
      (¬ locals.length ∣ unpaddedDimSize → (∀ x ∈ locals, unpaddedDimSize ≤ locals.length * x.size seqDim ∧
          locals.length * x.size seqDim < unpaddedDimSize + locals.length) →
        gatherHeadsScatterSeq true middle headDim seqDim = some (zeroPadding locals seqDim unpaddedDimSize))) :=
  ⟨fun f lead _ _ _ _ skip padValue worldSize present row aligned => row_gathered f lead present row aligned skip padValue worldSize,
    fun _ _ _ _ _ different gathered => heads_seq_undone different gathered⟩

/-- Two ranks with two heads each of a token; the second token is padding. -/
def paddedHeads : List (NdTensor Nat) := [⟨[1, 2], [1, 2], rfl⟩, ⟨[1, 2], [3, 4], rfl⟩]

def nextToken : PerToken Nat Nat := ⟨[], fun token position => ⟨[], [token + position.getD 0], rfl⟩, fun _ _ => rfl⟩

theorem sequence_restored_padded :
    (∃ sliced, (List.range 2).mapM (fun rank => ulyssesPadAndSliceInputs ⟨some (2, rank), 4⟩ (⟨[1, 3], [5, 6, 7], rfl⟩ : NdTensor Nat)
        (some ⟨[1, 3], [0, 1, 2], rfl⟩) 2 false 0) = some sliced ∧
      ∀ own ∈ sliced, gatherOutputsAndUnpad true
          (sliced.map (fun slices => nextToken.apply 0 slices.1 (if false then none else slices.2.1))) 0 (some 0) own.2.2 =
        some (sliced.map (fun _ => nextToken.apply 0 ⟨[1, 3], [5, 6, 7], rfl⟩ (if false then none else some ⟨[1, 3], [0, 1, 2], rfl⟩)))) ∧
    gatherHeadsScatterSeq true [⟨[1, 1], [1], rfl⟩, ⟨[1, 1], [2], rfl⟩] 1 0 = some (zeroPadding paddedHeads 0 1) :=
  ⟨(@sequence_restored Nat Nat _).1 nextToken 0 2 3 _ _ false 0 4 (by decide) rfl (by simp),
    ((@sequence_restored Nat Nat _).2 paddedHeads _ 0 1 1 (by decide) (by decide)).2 (by decide) (by decide)⟩

/-- What was in the padding is lost. -/
theorem padding_not_restored :
    (gatherSeqScatterHeads true paddedHeads 0 1 1).bind (fun middle => gatherHeadsScatterSeq true middle 1 0) =
        some [⟨[1, 2], [1, 2], rfl⟩, ⟨[1, 2], [0, 0], rfl⟩] ∧
      (gatherSeqScatterHeads true paddedHeads 0 1 1).bind (fun middle => gatherHeadsScatterSeq true middle 1 0) ≠ some paddedHeads := by
  decide

end LLMFusion.Ulysses
