import LLMFusion.SplitTensors

/-! What the split gives back. A fused tensor has the rows of its heads group by group, so the pieces
of one group each are cut where its query, key and value rows meet; the two halves of a gate and up
tensor are those of the rank it belongs to. -/

namespace LLMFusion.SplitTensors
open List hiding mapM_map
open Blocks Slices Fallible

variable {α : Type}

/-- Split the shards of all ranks, and concatenate what they give. -/
def separate (key : Text) (config : Config) (shards : List (List α)) (count : Nat) : Except Failure (List (List α)) :=
  (shards.mapM (fun shard => splitTensors key shard config)).map (fun parts =>
    (List.range count).map (fun index => parts.flatMap (fun part => part.getD index [])))

/-- The query, key and value matrices of an attention layer, `numQPerKv` query heads for each group. -/
structure Attention (α : Type) where
  key : Text
  named : linearQkv <:+: key ∧ ¬ layerNorm <:+: key ∧ ¬ fc1Weight <:+: key
  groups : Nat
  positive : 0 < groups
  numQPerKv : Nat
  headDim : Nat
  q : List α
  k : List α
  v : List α
  qRows : q.length = groups * (numQPerKv * headDim)
  kRows : k.length = groups * headDim
  vRows : v.length = groups * headDim

namespace Attention
variable (layer : Attention α)

def config : Config := ⟨layer.groups * layer.numQPerKv, layer.groups⟩

/-- The rows of a query group. -/
def group (index : Nat) : List α :=
  block (layer.numQPerKv * layer.headDim) layer.q index ++ (block layer.headDim layer.k index ++ block layer.headDim layer.v index)

def fused : List α := (List.range layer.groups).flatMap layer.group

/-- The groups of every tensor parallel rank. -/
def shards (tpSize : Nat) : List (List α) := (List.range tpSize).map (block (layer.fused.length / tpSize) layer.fused)

end Attention

/-- The gate and up matrices of an MLP, of which every rank has `each` rows. -/
structure Mlp (α : Type) where
  key : Text
  named : fc1Weight <:+: key
  config : Config
  tpSize : Nat
  each : Nat
  gate : List α
  up : List α
  gateRows : gate.length = tpSize * each
  upRows : up.length = tpSize * each

/-- The fused shards of the ranks. -/
def Mlp.shards (mlp : Mlp α) : List (List α) :=
  (List.range mlp.tpSize).map (fun rank => block mlp.each mlp.gate rank ++ block mlp.each mlp.up rank)

/-! ### One tensor -/

theorem splitGateUp_halves {gate up : List α} (even : gate.length = up.length) : splitGateUp (gate ++ up) = .ok [gate, up] := by
  have whole : (gate ++ up).length = 2 * gate.length := by
    rw [length_append]
    omega
  have first : block gate.length (gate ++ up) 0 = gate := by
    simp [block, slice]
  have second : block gate.length (gate ++ up) 1 = up := by
    rw [block, slice, Nat.one_mul, ← whole, take_length, drop_left]
  rw [splitGateUp, chunk_even (by decide) whole]
  simp only [range_succ, range_zero, nil_append, map_append, map_cons, map_nil, first, second]
  rfl

theorem splitThree_parts (first second third : List α) :
    splitThree first.length second.length third.length (first ++ (second ++ third)) = .ok (first, second, third) := by
  have whole : (first ++ (second ++ third)).length = first.length + second.length + third.length := by
    rw [length_append, length_append, Nat.add_assoc]
  have last : (first ++ (second ++ third)).drop (first.length + second.length) = third := by
    rw [← drop_drop, drop_left, drop_left]
  rw [splitThree, if_pos whole, take_left, drop_left, take_left, last]

/-! ### An attention layer -/

section Layer
variable (layer : Attention α)

theorem group_length {index : Nat} (inside : index < layer.groups) :
    (layer.group index).length = (layer.numQPerKv + 2) * layer.headDim := by
  rw [Attention.group, length_append, length_append, block_length layer.qRows inside, block_length layer.kRows inside,
    block_length layer.vRows inside, Nat.add_mul]
  omega

theorem fused_length : layer.fused.length = layer.groups * ((layer.numQPerKv + 2) * layer.headDim) :=
  flatMap_length (fun _ inside => group_length layer inside)

theorem splitQkv_fused : splitQkv layer.fused layer.config = .ok [layer.q, layer.k, layer.v] := by
  have some := layer.positive
  have rows : layer.fused.length = (layer.numQPerKv + 2) * (layer.groups * layer.headDim) := by
    rw [fused_length, Nat.mul_left_comm]
  have heads : layer.config.numAttentionHeads % layer.config.numKeyValueHeads = 0 := Nat.mul_mod_right _ _
  have numQPerKv : layer.config.numAttentionHeads / layer.config.numKeyValueHeads = layer.numQPerKv := Nat.mul_div_cancel_left _ some
  have even : layer.fused.length % (layer.numQPerKv + 2) = 0 := by
    rw [rows, Nat.mul_mod_right]
  have kvSize : layer.fused.length / (layer.numQPerKv + 2) = layer.groups * layer.headDim := by
    rw [rows, Nat.mul_div_cancel_left _ (by omega)]
  have qRows : layer.groups * layer.headDim * layer.numQPerKv / layer.groups = layer.numQPerKv * layer.headDim := by
    rw [Nat.mul_assoc, Nat.mul_div_cancel_left _ some, Nat.mul_comm]
  have kvRows : layer.groups * layer.headDim / layer.groups = layer.headDim := Nat.mul_div_cancel_left _ some
  have chunks : (chunk layer.groups layer.fused).getD [] = (range layer.groups).map layer.group := by
    rw [chunk_even some (fused_length layer), Option.getD_some]
    apply map_congr_left
    intro index member
    exact block_flatMap (fun _ inside => group_length layer inside) (mem_range.mp member)
  have parts : ((range layer.groups).map layer.group).mapM
      (splitThree (layer.numQPerKv * layer.headDim) layer.headDim layer.headDim) =
      .ok ((range layer.groups).map (fun index => (block (layer.numQPerKv * layer.headDim) layer.q index,
        block layer.headDim layer.k index, block layer.headDim layer.v index))) := by
    rw [List.mapM_map]
    apply mapM_map
    intro index member
    have inside := mem_range.mp member
    have cut := splitThree_parts (block (layer.numQPerKv * layer.headDim) layer.q index) (block layer.headDim layer.k index)
      (block layer.headDim layer.v index)
    rw [block_length layer.qRows inside, block_length layer.kRows inside, block_length layer.vRows inside] at cut
    exact cut
  have nonzero : layer.config.numKeyValueHeads ≠ 0 := some.ne'
  have q := blocks_whole layer.qRows
  have k := blocks_whole layer.kRows
  have v := blocks_whole layer.vRows
  have groups : layer.config.numKeyValueHeads = layer.groups := rfl
  rw [splitQkv, if_neg nonzero, if_neg (not_not.mpr heads), numQPerKv, if_neg (not_not.mpr even)]
  simp only [kvSize, groups, qRows, kvRows, chunks, parts, ok_bind, flatMap_map, q, k, v]
  rfl

theorem separate_fused : separate layer.key layer.config [layer.fused] 3 = .ok [layer.q, layer.k, layer.v] := by
  have split : splitTensors layer.key layer.fused layer.config = .ok [layer.q, layer.k, layer.v] := by
    rw [splitTensors, if_neg layer.named.2.2, if_pos ⟨layer.named.1, layer.named.2.1⟩, splitQkv_fused]
  have parts : [layer.fused].mapM (fun shard => splitTensors layer.key shard layer.config) = .ok [[layer.q, layer.k, layer.v]] :=
    mapM_map (fun _ => [layer.q, layer.k, layer.v]) (fun shard member => mem_singleton.mp member ▸ split)
  rw [separate, parts]
  simp [Except.map, range_succ]

end Layer

/-! ### An MLP -/

theorem separate_gateUp (mlp : Mlp α) : separate mlp.key mlp.config mlp.shards 2 = .ok [mlp.gate, mlp.up] := by
  have parts : mlp.shards.mapM (fun shard => splitTensors mlp.key shard mlp.config) =
      .ok ((range mlp.tpSize).map (fun rank => [block mlp.each mlp.gate rank, block mlp.each mlp.up rank])) := by
    rw [Mlp.shards, List.mapM_map]
    apply mapM_map
    intro rank member
    have inside := mem_range.mp member
    refine (if_pos mlp.named).trans ?_
    exact splitGateUp_halves ((block_length mlp.gateRows inside).trans (block_length mlp.upRows inside).symm)
  have gate := blocks_whole mlp.gateRows
  have up := blocks_whole mlp.upRows
  rw [separate, parts]
  simp only [Except.map, range_succ, range_zero, nil_append, map_append, map_cons, map_nil,
    flatMap_map, getD_cons_zero, getD_cons_succ, gate, up]
  rfl

def qkvKey : Text := "decoder.layers.0.self_attention.linear_qkv.weight".toList

theorem qkvKey_named : linearQkv <:+: qkvKey ∧ ¬ layerNorm <:+: qkvKey ∧ ¬ fc1Weight <:+: qkvKey := by
  decide +kernel

/-- Two query groups of one head, with two rows each. -/
def twoGroups : Attention (Char × Nat) where
  key := qkvKey
  named := qkvKey_named
  groups := 2
  positive := Nat.zero_lt_two
  numQPerKv := 1
  headDim := 2
  q := [('q', 0), ('q', 1), ('q', 2), ('q', 3)]
  k := [('k', 0), ('k', 1), ('k', 2), ('k', 3)]
  v := [('v', 0), ('v', 1), ('v', 2), ('v', 3)]
  qRows := rfl
  kRows := rfl
  vRows := rfl

end LLMFusion.SplitTensors
