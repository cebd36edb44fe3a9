import LLMFusion.Protocol

/-! Padding a batch to a multiple of a divisor with its own rows, and taking the padding off again. -/

namespace LLMFusion.Protocol

variable {τ ν μ : Type}

inductive PadFailure where
  /-- `len(data) % 0` -/
  | zeroDivision
  | protocol (failure : Failure)
  deriving DecidableEq, Repr

/-- The sizes that the loop takes while some of the padding remains. Every one of them is positive, so that
what remains is enough fuel. -/
def takeSizes (length : Nat) : (fuel remainingPad : Nat) → List Nat
  | 0, _ => []
  | fuel + 1, remainingPad =>
    if 0 < remainingPad then
      let takeSize := min remainingPad length
      takeSize :: takeSizes length fuel (remainingPad - takeSize)
    else []

/-- The padded batch and the number of rows that are added. -/
def padDataprotoToDivisor [Value μ] (data : DataProto τ ν μ) (sizeDivisor : Nat) : Except PadFailure (DataProto τ ν μ × Nat) :=
  if sizeDivisor = 0 then .error .zeroDivision
  else if data.len % sizeDivisor ≠ 0 then
    let padSize := sizeDivisor - data.len % sizeDivisor
    let padded := do
      let paddingProtos ← (takeSizes data.len padSize padSize).mapM (fun takeSize => data.slice 0 takeSize)
      DataProto.concat (data :: paddingProtos)
    match padded with
    | .ok padded => .ok (padded, padSize)
    | .error failure => .error (.protocol failure)
  else .ok (data, 0)

/-- `data[:-pad_size]` -/
def DataProto.dropLast (data : DataProto τ ν μ) (padSize : Nat) : Except Failure (DataProto τ ν μ) :=
  DataProto.make (data.batch.map (fun table => table.slice 0 (table.batchSize - padSize)))
    (mapColumns (fun items => Slices.slice items 0 (items.length - padSize)) data.nonTensorBatch) data.metaInfo

def unpadDataproto (data : DataProto τ ν μ) (padSize : Nat) : Except Failure (DataProto τ ν μ) :=
  if padSize ≠ 0 then data.dropLast padSize else .ok data

end LLMFusion.Protocol
