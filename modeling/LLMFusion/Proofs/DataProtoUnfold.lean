import LLMFusion.Proofs.DataProtoRepeat

/-! Cutting columns into rows. A column that is cut is only reshaped: the parts of a row lie one behind
the other, and become rows of their own. -/

namespace LLMFusion.TensorProtocol
open NdTensor Fallible Blocks

variable {α β ε μ : Type} {rows nSplit : Nat}

/-- Every row is cut along its first dimension into parts of one size, which are consecutive rows. -/
def Cuts (rows nSplit : Nat) (x y : NdTensor ε) : Prop :=
  ∃ size tail, x.shape = rows :: nSplit * size :: tail ∧ y.shape = rows * nSplit :: size :: tail ∧
    ∀ i < rows, ∀ c < nSplit, ∃ row, x.rows[i]? = some row ∧ y.rows[i * nSplit + c]? = some (block (size * tail.prod) row c)

/-- A column with a second dimension that can be divided. -/
def Cuttable (nSplit : Nat) (x : NdTensor ε) : Prop :=
  0 < nSplit ∧ ∃ rows width tail, x.shape = rows :: width :: tail ∧ nSplit ∣ width

section Column
variable {x y : NdTensor ε}

theorem reshaped_cuts {size : Nat} {tail : List Nat} (shaped : x.shape = rows :: nSplit * size :: tail)
    (shape : y.shape = rows * nSplit :: size :: tail) (data : y.data = x.data) : Cuts rows nSplit x y := by
  refine ⟨size, tail, shaped, shape, ?_⟩
  intro i iInside c cInside
  have inside : i * nSplit + c < rows * nSplit := by
    calc i * nSplit + c < i * nSplit + nSplit := Nat.add_lt_add_left cInside _
      _ = (i + 1) * nSplit := (Nat.succ_mul i nSplit).symm
      _ ≤ rows * nSplit := Nat.mul_le_mul_right _ iInside
  refine ⟨_, rows_getElem? shaped iInside, ?_⟩
  rw [rows_getElem? shape inside, data, List.prod_cons, List.prod_cons, Nat.mul_assoc]
  exact congrArg some (block_block _ _ _ _ cInside).symm

theorem cutSecond_cuts {sizes : List Nat} (first : x.shape = rows :: sizes) (cuttable : Cuttable nSplit x) :
    ∃ y, cutSecond nSplit x = .ok y ∧ Cuts rows nSplit x y := by
  obtain ⟨some, rows', width, tail, shaped, size, rfl⟩ := cuttable
  cases first.symm.trans shaped
  have each : nSplit * size / nSplit = size := Nat.mul_div_cancel_left size some
  have fits : x.data.length = (rows * nSplit :: size :: tail).prod := by
    rw [x.sized, shaped]
    simp only [List.prod_cons, Nat.mul_assoc]
  obtain ⟨y, reshaped, shape, data⟩ := reshapeTo_ok fits
  refine ⟨y, ?_, reshaped_cuts shaped shape data⟩
  simp only [cutSecond, shaped, Nat.ne_of_gt some, ite_false, each, reshaped]

theorem cutSecond_positive (cut : cutSecond nSplit x = .ok y) : 0 < nSplit := by
  refine Nat.pos_of_ne_zero ?_
  rintro rfl
  simp only [cutSecond, ite_true] at cut
  split at cut <;> cases cut

theorem cuttable_of_cuts (some : 0 < nSplit) (cuts : Cuts rows nSplit x y) : Cuttable nSplit x := by
  obtain ⟨size, tail, shaped, _⟩ := cuts
  exact ⟨some, rows, nSplit * size, tail, shaped, Nat.dvd_mul_right _ _⟩

end Column

/-- What becomes of the column of a key. -/
def Unfolds (rows nSplit : Nat) (splitKeys : Option (List String)) (key : String) (x y : NdTensor ε) : Prop :=
  if key ∈ splitKeys.getD [] then Cuts rows nSplit x y
  else Gathers (repeatSources 0 (List.replicate rows nSplit)) x y

/-- The batch has `nSplit` times as many rows, the columns of the keys are cut and the others repeated. -/
def UnfoldLaw (rows nSplit : Nat) (splitKeys : Option (List String)) (data : DataProto α β μ) : Prop :=
  ∃ result, data.unfoldColumnChunks nSplit splitKeys = .ok result ∧
    Rebuilt (rows * nSplit) (Unfolds rows nSplit splitKeys) (Unfolds rows nSplit splitKeys) data result

section Batch
variable {data : DataProto α β μ} {splitKeys : Option (List String)} {keys : List String}

theorem unfolds_rows {key : String} {x y : NdTensor ε} (unfolds : Unfolds rows nSplit splitKeys key x y) :
    ∃ tail, y.shape = rows * nSplit :: tail := by
  rw [Unfolds] at unfolds
  split at unfolds
  · obtain ⟨size, tail, _, shape, _⟩ := unfolds
    exact ⟨size :: tail, shape⟩
  · obtain ⟨tail, shape⟩ := gathers_rows unfolds
    rw [repeatSources_length, List.sum_replicate, smul_eq_mul] at shape
    exact ⟨tail, shape⟩

theorem column_unfolds {key : String} {x : NdTensor ε} {sizes : List Nat} (shaped : x.shape = rows :: sizes)
    (cuttable : key ∈ keys → Cuttable nSplit x) :
    ∃ y, (if key ∈ keys then cutSecond nSplit x else repeatInterleave [nSplit] x) = .ok y ∧
      Unfolds rows nSplit (some keys) key x y := by
  simp only [Unfolds, Option.getD_some]
  split
  next isKey => exact cutSecond_cuts shaped (cuttable isKey)
  next => exact single_gathers shaped

theorem column_cuttable {key : String} {x y : NdTensor ε} (isKey : key ∈ keys)
    (cut : ∃ z, (if key ∈ keys then cutSecond nSplit x else repeatInterleave [nSplit] x) = .ok z)
    (unfolds : Unfolds rows nSplit (some keys) key x y) : Cuttable nSplit x := by
  obtain ⟨z, cut⟩ := cut
  rw [if_pos isKey] at cut
  rw [Unfolds, Option.getD_some, if_pos isKey] at unfolds
  exact cuttable_of_cuts (cutSecond_positive cut) unfolds

theorem unfoldLaw_some (hasRows : data.HasRows rows) (keys : List String) : UnfoldLaw rows nSplit (some keys) data ↔
      (∀ table, data.batch = some table → ∀ column ∈ table.columns, column.1 ∈ keys → Cuttable nSplit column.2) ∧
      ∀ column ∈ data.nonTensorBatch, column.1 ∈ keys → Cuttable nSplit column.2 := by
  constructor
  · rintro ⟨result, returned, rebuilt⟩
    obtain ⟨tensors, arrays⟩ := rebuild_returned returned
    constructor
    · intro table held column member isKey
      have related := rebuilt.batch
      rw [held] at related
      generalize result.batch = batch at related
      cases related with
      | some both =>
        obtain ⟨column', _, _, unfolds⟩ := forall₂_left both.2 member
        exact column_cuttable isKey ((tensors table held).1 column member) unfolds
    · intro column member isKey
      obtain ⟨column', _, _, unfolds⟩ := forall₂_left rebuilt.nonTensorBatch member
      exact column_cuttable isKey (arrays column member) unfolds
  · rintro ⟨tensors, arrays⟩
    refine rebuild_ok ?_ ?_ (fun _ _ _ => unfolds_rows) ?_ (fun _ _ _ => unfolds_rows)
    · intro table held
      rw [hasRows.batch table held, List.headD_cons]
    · intro table held column member
      obtain ⟨tail, shaped⟩ := hasRows.tensors held column member
      exact column_unfolds shaped (tensors table held column member)
    · intro column member
      obtain ⟨tail, shaped⟩ := hasRows.nonTensorBatch column member
      exact column_unfolds shaped (arrays column member)

theorem unfoldLaw_none (hasRows : data.HasRows rows) : UnfoldLaw rows nSplit none data ↔ data.nonTensorBatch = [] := by
  constructor
  · rintro ⟨result, returned, _⟩
    cases held : data.nonTensorBatch with
    | nil => rfl
    | cons column columns =>
      obtain ⟨y, made⟩ := (rebuild_returned returned).2 column (held ▸ List.mem_cons_self)
      cases made
  · intro noArrays
    refine rebuild_ok ?_ ?_ (fun _ _ _ => unfolds_rows) ?_ (fun _ _ _ => unfolds_rows)
    · intro table held
      rw [hasRows.batch table held, List.headD_cons]
    · intro table held column member
      obtain ⟨tail, shaped⟩ := hasRows.tensors held column member
      simp only [Unfolds, Option.getD_none, List.not_mem_nil, ite_false]
      exact single_gathers shaped
    · intro column member
      rw [noArrays] at member
      cases member

theorem unfoldLaw_iff (hasRows : data.HasRows rows) :
    UnfoldLaw rows nSplit splitKeys data ↔
      (splitKeys = none → data.nonTensorBatch = []) ∧
      (∀ table, data.batch = some table → ∀ column ∈ table.columns, column.1 ∈ splitKeys.getD [] → Cuttable nSplit column.2) ∧
      ∀ column ∈ data.nonTensorBatch, column.1 ∈ splitKeys.getD [] → Cuttable nSplit column.2 := by
  cases splitKeys with
  | none =>
    rw [unfoldLaw_none hasRows]
    constructor
    · intro noArrays
      exact ⟨fun _ => noArrays, fun _ _ _ _ impossible => absurd impossible List.not_mem_nil,
        fun _ _ impossible => absurd impossible List.not_mem_nil⟩
    · intro holds
      exact holds.1 rfl
  | some keys =>
    rw [unfoldLaw_some hasRows keys]
    exact ⟨fun holds => ⟨fun impossible => (by cases impossible), holds⟩, fun holds => holds.2⟩

end Batch

/-- A row with an array, and without one. -/
private def unfolded (arrays : List (String × NdTensor Nat)) : DataProto Nat Nat Unit where
  batch := some {
    batchSize := [1]
    columns := [("obs", ⟨[1, 4], [1, 2, 3, 4], rfl⟩)]
    regular := by
      intro column member
      cases List.mem_singleton.mp member
      exact ⟨[4], rfl⟩ }
  nonTensorBatch := arrays
  metaInfo := []

private theorem unfolded_hasRows {arrays : List (String × NdTensor Nat)}
    (sized : ∀ column ∈ arrays, ∃ tail, column.2.shape = 1 :: tail) : (unfolded arrays).HasRows 1 := by
  refine ⟨?_, sized⟩
  intro table held
  cases held
  rfl

theorem unfoldLaw_obs : UnfoldLaw 1 2 (some ["obs"]) (unfolded []) := by
  refine (unfoldLaw_iff (unfolded_hasRows (by simp))).mpr ⟨by simp, ?_, fun _ impossible => by cases impossible⟩
  intro table held
  cases held
  intro column member _
  cases List.mem_singleton.mp member
  exact ⟨Nat.zero_lt_two, 1, 4, [], rfl, 2, rfl⟩

/-- Without keys the array stops the loop. -/
theorem unfoldLaw_default : ¬ UnfoldLaw 1 2 none (unfolded [("labels", ⟨[1], [7], rfl⟩)]) := by
  rintro ⟨result, returned, _⟩
  have refused : (unfolded [("labels", ⟨[1], [7], rfl⟩)]).unfoldColumnChunks 2 none = .error .typeError := rfl
  cases refused.symm.trans returned

end LLMFusion.TensorProtocol
