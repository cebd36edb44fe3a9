import LLMFusion.Lib.Blocks
import Mathlib.Data.List.Infix

/-! Splitting the fused tensors of a checkpoint that is merged. A tensor is the list of its rows. The
model is built without tensor parallelism, and the loaded tensors are whole. -/

namespace LLMFusion.SplitTensors
open Blocks

inductive Failure where
  | assertion
  | zeroDivision
  /-- `not enough values to unpack` -/
  | valueError
  /-- `split_with_sizes expects split_sizes to sum exactly` -/
  | runtimeError
  deriving DecidableEq, Repr

abbrev Text := List Char

structure Config where
  numAttentionHeads : Nat
  numKeyValueHeads : Nat
  deriving DecidableEq, Repr

def fc1Weight : Text := "linear_fc1.weight".toList

def linearQkv : Text := "self_attention.linear_qkv.".toList

def layerNorm : Text := "layer_norm".toList

variable {α : Type}

/-- `gate, up = tensor.chunk(2)` -/
def splitGateUp (tensor : List α) : Except Failure (List (List α)) :=
  match chunk 2 tensor with
  | some [gate, up] => .ok [gate, up]
  | _ => .error .valueError

/-- `chunk.split(split_size)` into three parts. -/
def splitThree (first second third : Nat) (tensor : List α) : Except Failure (List α × List α × List α) :=
  if tensor.length = first + second + third then
    .ok (tensor.take first, (tensor.drop first).take second, tensor.drop (first + second))
  else .error .runtimeError

/-- `num_key_value_heads` is not zero here, and `tensor.chunk` returns. -/
def splitQkv (tensor : List α) (config : Config) : Except Failure (List (List α)) := do
  if config.numKeyValueHeads = 0 then throw .zeroDivision
  if config.numAttentionHeads % config.numKeyValueHeads ≠ 0 then throw .assertion
  let numQPerKv := config.numAttentionHeads / config.numKeyValueHeads
  if tensor.length % (numQPerKv + 2) ≠ 0 then throw .assertion
  let kvSize := tensor.length / (numQPerKv + 2)
  let numQueryGroupsPerPartition := config.numKeyValueHeads
  let parts ← ((chunk numQueryGroupsPerPartition tensor).getD []).mapM
    (splitThree (kvSize * numQPerKv / numQueryGroupsPerPartition) (kvSize / numQueryGroupsPerPartition)
      (kvSize / numQueryGroupsPerPartition))
  return [parts.flatMap Prod.fst, parts.flatMap (fun part => part.2.1), parts.flatMap (fun part => part.2.2)]

def splitTensors (key : Text) (tensor : List α) (config : Config) : Except Failure (List (List α)) :=
  if fc1Weight <:+: key then splitGateUp tensor
  else if linearQkv <:+: key ∧ ¬ layerNorm <:+: key then splitQkv tensor config
  else .ok [tensor]

end LLMFusion.SplitTensors
