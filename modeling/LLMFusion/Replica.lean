/-! What a rollout replica returns for a request. -/

namespace LLMFusion.Replica

/-- Tokens are of type `τ`, log-probs of type `ρ`, routing rows of type `κ`. -/
structure TokenOutput (τ ρ κ : Type) where
  tokenIds : List τ
  logProbs : Option (List ρ)
  routedExperts : Option (List κ)
  stopReason : Option String
  numPreempted : Option Int
  extraFields : List (String × Option Int)

/-- The reasons for which a partial rollout is resumed. -/
def aborted (stopReason : Option String) : Bool := stopReason = some "aborted" || stopReason = some "abort"

end LLMFusion.Replica
