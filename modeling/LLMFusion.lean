import LLMFusion.Proofs.TokenBudget
import LLMFusion.Proofs.ThdRoll
import LLMFusion.Proofs.BshdEngine
import LLMFusion.Proofs.ToolAgentLoop
import LLMFusion.Proofs.FullyAsyncClient
import LLMFusion.Proofs.InflightRequests
import LLMFusion.Proofs.AsyncTokenBucket
import LLMFusion.Proofs.Staleness
import LLMFusion.Proofs.MessageQueue
import LLMFusion.Proofs.ConcatRows
import LLMFusion.Proofs.OptimalTokenBaseline
import LLMFusion.Proofs.FsdpModelMerger
import LLMFusion.Proofs.Ulysses
import LLMFusion.Proofs.ResourcePool
import LLMFusion.Proofs.WeightTransfer
import LLMFusion.Proofs.PrefixGrouper
import LLMFusion.Proofs.RewardLoop
import LLMFusion.Proofs.McoreWeights
import LLMFusion.Proofs.OneStepOff
import LLMFusion.Proofs.ReplayBuffer
import LLMFusion.Proofs.GreedyPartition
import LLMFusion.Proofs.GroupBalancing
import LLMFusion.Proofs.PadToDivisor
import LLMFusion.Proofs.RatioBounds
import LLMFusion.Proofs.RolloutWeights
import LLMFusion.Proofs.GroupLabels
import LLMFusion.Proofs.ActivationReload
import LLMFusion.Proofs.NixlTransfer
import LLMFusion.Proofs.MegatronModelMerger
import LLMFusion.Proofs.CallTool
import LLMFusion.Proofs.KimiCheckpointEngine
import LLMFusion.Proofs.DataProtoUnion
import LLMFusion.Proofs.DataProtoUnfold
import LLMFusion.Proofs.DataProtoFold
import LLMFusion.Proofs.LogProbs
import LLMFusion.Proofs.Gemma4ToolParser
import LLMFusion.Proofs.Qwen3XMLToolParser
import LLMFusion.Proofs.BoxedAnswer
import LLMFusion.Proofs.Rlla
import LLMFusion.Proofs.CheckpointManager
import LLMFusion.Proofs.SplitTensors
import LLMFusion.Proofs.SaveShards
import LLMFusion.Proofs.OptionalMarker
import LLMFusion.Proofs.BalanceBatch
import LLMFusion.Proofs.WriteGenerations
import LLMFusion.Proofs.SessionAdvantages
import LLMFusion.Proofs.AgentLoopBatch
import LLMFusion.Proofs.TensordictChunks
import LLMFusion.Proofs.SftLoss
import LLMFusion.Proofs.MergedValidation
import LLMFusion.Proofs.RemaxBaselines
import LLMFusion.Proofs.MultiTurnSftDataset
import LLMFusion.Proofs.NixlTopology
import LLMFusion.Proofs.SandboxFusion
import LLMFusion.Proofs.DynamicContextParallel
import LLMFusion.Proofs.BfclMultiturn
import LLMFusion.Proofs.KlGradient
