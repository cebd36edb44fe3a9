import LLMFusion.BucketedWeightTransfer
import LLMFusion.Lib.NextFit
import LLMFusion.Proofs.NcclTransfer

/-! Where tensors are placed in buckets. A tensor that the receiver views in place is
aligned exactly when the bytes before it in its bucket are a multiple of its item size. -/

namespace LLMFusion.BucketedWeightTransfer
open List
open CheckpointEngine NextFit

variable {bucketSize : Nat} {useShm : Bool} {bucket : Bucket} {weight : Weight} {weights : List Weight}

/-- The weights that the sender reaches: without handles it stops at a large one. -/
def reached (bucketSize : Nat) (useShm : Bool) (weights : List Weight) : List Weight :=
  if useShm then weights.takeWhile (fun weight => weight.tensor.nbytes ≤ bucketSize) else weights

def entryOf (placed : Nat × Weight) : String × TensorMetadata := (placed.2.name, placedAt placed.1 placed.2)

def placements (bucketSize offset : Nat) (weights : List Weight) : List (Nat × Weight) :=
  (offsets (fun weight => weight.tensor.nbytes) bucketSize offset weights).filter
    (fun placed => placed.2.tensor.nbytes ≤ bucketSize)

structure Bucket.Sound (bucketSize : Nat) (bucket : Bucket) : Prop where
  buffer : bucket.buffer.length = bucketSize
  bounded : bucket.offset ≤ bucketSize
  empty : bucket.bucketMeta = [] → bucket.offset = 0

theorem Bucket.Sound.reset (sound : bucket.Sound bucketSize) : bucket.reset.Sound bucketSize :=
  ⟨sound.buffer, Nat.zero_le _, fun _ => rfl⟩

theorem insert_ne_nil {α : Type} (key : String) (value : α) (entries : List (String × α)) :
    Indexing.insert key value entries ≠ [] := by
  intro nothing
  have present : key ∈ (Indexing.insert key value entries).map Prod.fst := Indexing.mem_insert_keys.mpr (Or.inl rfl)
  rw [nothing] at present
  cases present

theorem putWeight_fits (useShm : Bool) (sound : bucket.Sound bucketSize)
    (fits : bucket.offset + weight.tensor.nbytes ≤ bucketSize) : ∃ next : Bucket, next.Sound bucketSize ∧
      putWeight bucketSize useShm bucket weight = ([], .ok next) ∧ next.offset = bucket.offset + weight.tensor.nbytes ∧
      next.bucketMeta = Indexing.insert weight.name (placedAt bucket.offset weight) bucket.bucketMeta := by
  have length : weight.tensor.bytes.length = weight.tensor.nbytes := weight.tensor.sized
  obtain ⟨buffer, written, size, _⟩ := Slices.assign_slices (Nat.le_add_right bucket.offset weight.tensor.nbytes)
    (Nat.le_trans fits (Nat.le_of_eq sound.buffer.symm)) (length.trans (Nat.add_sub_cancel_left _ _).symm)
  refine ⟨⟨buffer, Indexing.insert weight.name (placedAt bucket.offset weight) bucket.bucketMeta,
    bucket.offset + weight.tensor.nbytes⟩, ⟨size.trans sound.buffer, fits, ?_⟩, ?_, rfl, rfl⟩
  · exact fun nothing => absurd nothing (insert_ne_nil _ _ _)
  · rw [putWeight, if_neg (Nat.not_lt.mpr fits), written]

/-- Where the next weight goes: a bucket that has no room for it is sent. -/
def startOf (bucketSize offset : Nat) (weight : Weight) : Nat :=
  if bucketSize < offset + weight.tensor.nbytes then 0 else offset

theorem sendWeight_small (useShm : Bool) (sound : bucket.Sound bucketSize) (small : weight.tensor.nbytes ≤ bucketSize) :
    ∃ next flushed kept, next.Sound bucketSize ∧ sendWeight bucketSize useShm bucket weight = (flushed, .ok next) ∧
      (flushed = [] ∧ kept = bucket.bucketMeta ∨ flushed = [bucket.message false] ∧ kept = []) ∧
      next.offset = startOf bucketSize bucket.offset weight + weight.tensor.nbytes ∧
      next.bucketMeta = Indexing.insert weight.name (placedAt (startOf bucketSize bucket.offset weight) weight) kept := by
  by_cases full : bucketSize < bucket.offset + weight.tensor.nbytes
  · have some : bucket.bucketMeta ≠ [] := by
      intro nothing
      rw [sound.empty nothing] at full
      omega
    obtain ⟨next, nextSound, put, offset, bucketMeta⟩ := putWeight_fits useShm sound.reset
      (show bucket.reset.offset + weight.tensor.nbytes ≤ bucketSize by simpa [Bucket.reset] using small)
    refine ⟨next, _, _, nextSound, ?_, Or.inr ⟨rfl, rfl⟩, ?_, ?_⟩
    · rw [sendWeight, if_pos ⟨full, some⟩, put]
    · rw [startOf, if_pos full]
      exact offset
    · rw [startOf, if_pos full]
      exact bucketMeta
  · obtain ⟨next, nextSound, put, offset, bucketMeta⟩ := putWeight_fits useShm sound (Nat.not_lt.mp full)
    refine ⟨next, _, _, nextSound, ?_, Or.inl ⟨rfl, rfl⟩, ?_, ?_⟩
    · rw [sendWeight, if_neg (fun both => full both.1), put]
    · rw [startOf, if_neg full]
      exact offset
    · rw [startOf, if_neg full]
      exact bucketMeta

/-- A large weight leaves an empty bucket, and is sent by its handle if there are handles. -/
theorem sendWeight_large (useShm : Bool) (sound : bucket.Sound bucketSize) (large : bucketSize < weight.tensor.nbytes) :
    ∃ next flushed, next.Sound bucketSize ∧ next.bucketMeta = [] ∧ next.offset = 0 ∧
      (flushed = [] ∧ bucket.bucketMeta = [] ∨ flushed = [bucket.message false]) ∧
      sendWeight bucketSize useShm bucket weight =
        if useShm then (flushed, .error .assertionError) else (flushed ++ [directSendLargeWeight next weight], .ok next) := by
  have full : bucketSize < bucket.offset + weight.tensor.nbytes := by omega
  by_cases some : bucket.bucketMeta = []
  · refine ⟨bucket, [], sound, some, sound.empty some, Or.inl ⟨rfl, some⟩, ?_⟩
    rw [sendWeight, if_neg (fun both => both.2 some), putWeight, if_pos full, nil_append]
  · refine ⟨bucket.reset, _, sound.reset, rfl, rfl, Or.inr rfl, ?_⟩
    have alone : bucketSize < bucket.reset.offset + weight.tensor.nbytes := by
      change bucketSize < 0 + weight.tensor.nbytes
      omega
    rw [sendWeight, if_pos ⟨full, some⟩, putWeight, if_pos alone]
    split <;> rfl

/-! ### The entries of all messages -/

/-- An offset in a bin is that of the bucket, or the bin holds a large weight alone. -/
def SameStart (bucketSize : Nat) (bucket : Bucket) (offset : Nat) : Prop :=
  bucket.offset = offset ∨ bucket.offset = 0 ∧ bucket.bucketMeta = [] ∧ bucketSize < offset

theorem placements_small {offset : Nat} (same : SameStart bucketSize bucket offset) (small : weight.tensor.nbytes ≤ bucketSize) :
    placements bucketSize offset (weight :: weights) = (startOf bucketSize bucket.offset weight, weight) ::
        placements bucketSize (startOf bucketSize bucket.offset weight + weight.tensor.nbytes) weights := by
  have start : (if bucketSize < offset + weight.tensor.nbytes then 0 else offset) = startOf bucketSize bucket.offset weight := by
    rcases same with rfl | ⟨zero, _, alone⟩
    · rfl
    · rw [startOf, zero, if_pos (by omega), if_neg (by omega)]
  rw [placements, offsets, filter_cons_of_pos (by simpa using small), start, placements]

theorem placements_large (offset : Nat) (large : bucketSize < weight.tensor.nbytes) :
    placements bucketSize offset (weight :: weights) = placements bucketSize weight.tensor.nbytes weights := by
  rw [placements, offsets, filter_cons_of_neg (by simpa using large), if_pos (by omega), Nat.zero_add, placements]

theorem reached_small (useShm : Bool) (small : weight.tensor.nbytes ≤ bucketSize) :
    reached bucketSize useShm (weight :: weights) = weight :: reached bucketSize useShm weights := by
  cases useShm with
  | false => rfl
  | true => simp [reached, small]

theorem reached_large (useShm : Bool) (large : bucketSize < weight.tensor.nbytes) :
    reached bucketSize useShm (weight :: weights) = if useShm then [] else weight :: reached bucketSize useShm weights := by
  cases useShm with
  | false => rfl
  | true => simp [reached, large]

def Sent (messages : List Message) (entry : String × TensorMetadata) : Prop :=
  entry.2.handle = none ∧ ∃ message ∈ messages, entry ∈ message.bucketMeta

private theorem sent_append (messages messages' : List Message) (entry : String × TensorMetadata) :
    Sent (messages ++ messages') entry ↔ Sent messages entry ∨ Sent messages' entry := by
  simp only [Sent, mem_append, or_and_right, exists_or, and_or_left]

private theorem not_sent_direct (bucket : Bucket) (weight : Weight) (entry : String × TensorMetadata) :
    ¬ Sent [directSendLargeWeight bucket weight] entry := by
  rintro ⟨noHandle, message, member, isEntry⟩
  rw [mem_singleton.mp member, directSendLargeWeight, mem_singleton] at isEntry
  rw [isEntry] at noHandle
  cases noHandle

private theorem sent_message {isLast : Bool} {entry : String × TensorMetadata} :
    Sent [bucket.message isLast] entry ↔ entry.2.handle = none ∧ entry ∈ bucket.bucketMeta := by
  simp [Sent, Bucket.message]

theorem sent_placed (sound : bucket.Sound bucketSize) {offset : Nat} (same : SameStart bucketSize bucket offset)
    {entry : String × TensorMetadata} (isSent : Sent (sendLoop bucketSize useShm bucket weights).1 entry) :
    entry ∈ bucket.bucketMeta ∨
      entry ∈ (placements bucketSize offset (reached bucketSize useShm weights)).map entryOf := by
  induction weights generalizing bucket offset with
  | nil => exact Or.inl (sent_message.mp isSent).2
  | cons weight weights ih =>
    rw [sendLoop] at isSent
    rcases Nat.lt_or_ge bucketSize weight.tensor.nbytes with large | small
    · obtain ⟨next, flushed, nextSound, empty, zero, flushes, done⟩ := sendWeight_large useShm sound large
      have before : Sent flushed entry → entry ∈ bucket.bucketMeta := by
        intro isFlushed
        rcases flushes with ⟨rfl, _⟩ | rfl
        · obtain ⟨_, _, member, _⟩ := isFlushed
          cases member
        · exact (sent_message.mp isFlushed).2
      cases useShm with
      | true =>
        simp only [done, if_true] at isSent
        exact Or.inl (before isSent)
      | false =>
        simp only [done, Bool.false_eq_true, if_false, sent_append, not_sent_direct, or_false] at isSent
        rcases isSent with isFlushed | later
        · exact Or.inl (before isFlushed)
        · rcases ih nextSound (Or.inr ⟨zero, empty, large⟩) later with inBucket | isPlaced
          · rw [empty] at inBucket
            cases inBucket
          · rw [reached_large false large, if_neg Bool.false_ne_true, placements_large offset large]
            exact Or.inr isPlaced
    · obtain ⟨next, flushed, kept, nextSound, done, flushes, isOffset, bucketMeta⟩ := sendWeight_small useShm sound small
      simp only [done, sent_append] at isSent
      rw [reached_small useShm small, placements_small same small, map_cons, mem_cons]
      rcases isSent with isFlushed | later
      · rcases flushes with ⟨rfl, _⟩ | ⟨rfl, _⟩
        · obtain ⟨_, _, member, _⟩ := isFlushed
          cases member
        · exact Or.inl (sent_message.mp isFlushed).2
      · rcases ih nextSound (Or.inl isOffset) later with inBucket | isPlaced
        · rw [bucketMeta] at inBucket
          rcases Indexing.mem_insert inBucket with now | earlier
          · exact Or.inr (Or.inl now)
          · rcases flushes with ⟨_, rfl⟩ | ⟨_, rfl⟩
            · exact Or.inl earlier
            · cases earlier
        · exact Or.inr (Or.inr isPlaced)

theorem placed_sent (sound : bucket.Sound bucketSize) {offset : Nat} (same : SameStart bucketSize bucket offset)
    (distinct : (bucket.bucketMeta.map Prod.fst ++ weights.map Weight.name).Nodup) {entry : String × TensorMetadata}
    (noHandle : entry.2.handle = none) (isPlaced : entry ∈ bucket.bucketMeta ∨
      entry ∈ (placements bucketSize offset (reached bucketSize useShm weights)).map entryOf) :
    Sent (sendLoop bucketSize useShm bucket weights).1 entry := by
  induction weights generalizing bucket offset with
  | nil =>
    rcases isPlaced with inBucket | isPlaced
    · exact sent_message.mpr ⟨noHandle, inBucket⟩
    · cases useShm <;> cases isPlaced
  | cons weight weights ih =>
    rw [sendLoop]
    rcases Nat.lt_or_ge bucketSize weight.tensor.nbytes with large | small
    · obtain ⟨next, flushed, nextSound, empty, zero, flushes, done⟩ := sendWeight_large useShm sound large
      have before : entry ∈ bucket.bucketMeta → Sent flushed entry := by
        intro inBucket
        rcases flushes with ⟨_, nothing⟩ | rfl
        · rw [nothing] at inBucket
          cases inBucket
        · exact sent_message.mpr ⟨noHandle, inBucket⟩
      rw [reached_large useShm large] at isPlaced
      cases useShm with
      | true =>
        simp only [done, if_true]
        rcases isPlaced with inBucket | isPlaced
        · exact before inBucket
        · cases isPlaced
      | false =>
        simp only [done, Bool.false_eq_true, if_false, sent_append]
        rcases isPlaced with inBucket | isPlaced
        · exact Or.inl (Or.inl (before inBucket))
        · rw [if_neg Bool.false_ne_true, placements_large offset large] at isPlaced
          refine Or.inr (ih nextSound (Or.inr ⟨zero, empty, large⟩) ?_ (Or.inr isPlaced))
          rw [empty]
          exact (nodup_cons.mp (distinct.sublist (sublist_append_right _ _))).2
    · obtain ⟨next, flushed, kept, nextSound, done, flushes, isOffset, bucketMeta⟩ := sendWeight_small useShm sound small
      have distinct' : (kept.map Prod.fst ++ (weight :: weights).map Weight.name).Nodup := by
        rcases flushes with ⟨_, rfl⟩ | ⟨_, rfl⟩
        · exact distinct
        · exact distinct.sublist (sublist_append_right _ _)
      have absent : weight.name ∉ kept.map Prod.fst := by
        intro member
        exact (nodup_append.mp distinct').2.2 _ member _ mem_cons_self rfl
      rw [Indexing.insert_new absent] at bucketMeta
      simp only [done, sent_append]
      rw [reached_small useShm small, placements_small same small, map_cons, mem_cons] at isPlaced
      have further : (next.bucketMeta.map Prod.fst ++ weights.map Weight.name).Nodup := by
        rw [bucketMeta, map_append, append_assoc]
        exact distinct'
      rcases isPlaced with inBucket | now | later
      · rcases flushes with ⟨_, rfl⟩ | ⟨rfl, _⟩
        · refine Or.inr (ih nextSound (Or.inl isOffset) further (Or.inl ?_))
          rw [bucketMeta]
          exact mem_append_left _ inBucket
        · exact Or.inl (sent_message.mpr ⟨noHandle, inBucket⟩)
      · refine Or.inr (ih nextSound (Or.inl isOffset) further (Or.inl ?_))
        rw [bucketMeta, now]
        exact mem_append_right _ mem_cons_self
      · exact Or.inr (ih nextSound (Or.inl isOffset) further (Or.inr later))

/-! ### Alignment -/

/-- Every tensor that is viewed in place is at a multiple of its item size. -/
def BucketedAligned (memory : Nat → UInt8) (bucketSize : Nat) (useShm : Bool) (weights : List Weight) : Prop :=
  ∀ message ∈ (asyncSendWeights memory bucketSize useShm weights).1, ∀ entry ∈ message.bucketMeta,
    entry.2.handle = none → entry.2.dtype.itemsize ∣ entry.2.offset

/-- In a division of the weights into buckets, the bytes before a weight in its bucket are
a multiple of its item size. -/
def BucketedAlignable (bucketSize : Nat) (useShm : Bool) (weights : List Weight) : Prop :=
  ∀ bins, Division (fun weight : Weight => weight.tensor.nbytes) bucketSize (reached bucketSize useShm weights) bins →
    ∀ bin ∈ bins, ∀ before weight after, bin = before ++ weight :: after → weight.tensor.nbytes ≤ bucketSize →
      weight.tensor.dtype.itemsize ∣ total (fun weight => weight.tensor.nbytes) before

private theorem alignable_placements : BucketedAlignable bucketSize useShm weights ↔
    ∀ placed ∈ placements bucketSize 0 (reached bucketSize useShm weights), placed.2.tensor.dtype.itemsize ∣ placed.1 := by
  refine (forall_offsets_iff (fun offset (weight : Weight) => weight.tensor.nbytes ≤ bucketSize →
    weight.tensor.dtype.itemsize ∣ offset)).symm.trans ?_
  simp only [placements, mem_filter, decide_eq_true_eq, and_imp]

private theorem start_sound (memory : Nat → UInt8) (bucketSize : Nat) :
    Bucket.Sound bucketSize ⟨(range bucketSize).map memory, [], 0⟩ :=
  ⟨by simp, Nat.zero_le _, fun _ => rfl⟩

theorem bucketed_aligned (memory : Nat → UInt8) (alignable : BucketedAlignable bucketSize useShm weights) :
    BucketedAligned memory bucketSize useShm weights := by
  rw [alignable_placements] at alignable
  intro message member entry isEntry noHandle
  rcases sent_placed (start_sound memory bucketSize) (Or.inl rfl) ⟨noHandle, message, member, isEntry⟩ with nothing | isPlaced
  · cases nothing
  · obtain ⟨placed, isPlacement, rfl⟩ := mem_map.mp isPlaced
    exact alignable placed isPlacement

theorem bucketed_alignable {memory : Nat → UInt8} (distinct : (weights.map Weight.name).Nodup)
    (aligned : BucketedAligned memory bucketSize useShm weights) : BucketedAlignable bucketSize useShm weights := by
  rw [alignable_placements]
  intro placed isPlaced
  obtain ⟨noHandle, message, member, isEntry⟩ := placed_sent (start_sound memory bucketSize) (Or.inl rfl) distinct
    (show (entryOf placed).2.handle = none from rfl) (Or.inr (mem_map_of_mem isPlaced))
  exact aligned message member (entryOf placed) isEntry noHandle

end LLMFusion.BucketedWeightTransfer

namespace LLMFusion.NcclCheckpointEngine
open List
open CheckpointEngine NextFit Runs BucketedWeightTransfer

variable {bucketSize : Nat} {weights : List Weight}

/-- Every chunk that is a whole weight and so is viewed in place is at a multiple of its
item size. -/
def NcclAligned (bucketSize : Nat) (weights : List Weight) : Prop :=
  ∀ start events state, Started bucketSize weights start → Run (Step bucketSize) start events state →
    ∀ chunk ∈ state.receiver.yielded, chunk.1.nbytes ≤ bucketSize → ∀ offset, chunk.1.offset = some offset →
      chunk.1.dtype.itemsize ∣ offset

/-- The same condition on the chunks of the weights. -/
def NcclAlignable (bucketSize : Nat) (weights : List Weight) : Prop :=
  ∀ bins, Division (fun chunk : TensorMeta × Chunk => chunk.1.chunkSize) bucketSize (splitWeightChunks weights bucketSize) bins →
    ∀ bin ∈ bins, ∀ before chunk after, bin = before ++ chunk :: after → chunk.1.nbytes ≤ bucketSize →
      chunk.1.dtype.itemsize ∣ total (fun chunk => chunk.1.chunkSize) before

private theorem placed_offsets (offset : Nat) (chunks : List (TensorMeta × Chunk)) : placed bucketSize offset chunks =
    (offsets (fun chunk => chunk.1.chunkSize) bucketSize offset chunks).map
      (fun place => ({ place.2.1 with offset := some place.1 }, place.2.2.bytes)) := by
  induction chunks generalizing offset with
  | nil => rfl
  | cons chunk chunks ih =>
    rw [placed, offsets, map_cons, ih]

private theorem alignable_placed : NcclAlignable bucketSize weights ↔
    ∀ chunk ∈ placed bucketSize 0 (splitWeightChunks weights bucketSize), chunk.1.nbytes ≤ bucketSize →
      ∀ offset, chunk.1.offset = some offset → chunk.1.dtype.itemsize ∣ offset := by
  refine (forall_offsets_iff (fun offset (chunk : TensorMeta × Chunk) => chunk.1.nbytes ≤ bucketSize →
    chunk.1.dtype.itemsize ∣ offset)).symm.trans ?_
  rw [placed_offsets]
  constructor
  · intro all chunk member small offset isOffset
    obtain ⟨place, isPlace, rfl⟩ := mem_map.mp member
    cases isOffset
    exact all place isPlace small
  · intro all place isPlace small
    exact all _ (mem_map_of_mem isPlace) small place.1 rfl

theorem nccl_aligned (positive : 0 < bucketSize) (alignable : NcclAlignable bucketSize weights) :
    NcclAligned bucketSize weights := by
  rw [alignable_placed] at alignable
  intro start events state started run chunk member
  obtain ⟨_, stream⟩ := run_sound positive started run
  apply alignable
  rw [← stream, State.stream, Receiver.obtained, append_assoc, append_assoc, append_assoc]
  exact mem_append_left _ member

def initial (bucketSize : Nat) (weights : List Weight) : State :=
  ⟨⟨fun _ => List.replicate bucketSize 0, .send, none, [], 0, splitWeightChunks weights bucketSize, .filling⟩, [],
    ⟨fun _ => List.replicate bucketSize 0, .recv, .none, .starting, []⟩⟩

theorem initial_started (bucketSize : Nat) (weights : List Weight) : Started bucketSize weights (initial bucketSize weights) :=
  ⟨fun _ => length_replicate, rfl, rfl, rfl, rfl, rfl, rfl, rfl, fun _ => length_replicate, rfl, rfl, rfl, rfl⟩

theorem nccl_alignable (positive : 0 < bucketSize) (distinct : (weights.map Weight.name).Nodup)
    (aligned : NcclAligned bucketSize weights) : NcclAlignable bucketSize weights := by
  rw [alignable_placed]
  obtain ⟨events, final, run, all⟩ := exists_complete positive distinct (initial_started bucketSize weights)
  rw [← all]
  exact aligned _ events final (initial_started bucketSize weights) run

/-- On both ways the tensors that are viewed in place are aligned exactly when each has a
multiple of its item size before it in its bucket. -/
theorem in_place_aligned_iff (memory : Nat → UInt8) (bucketSize : Nat) (useShm : Bool) (weights : List Weight) :
    (0 < bucketSize → (NcclAlignable bucketSize weights → NcclAligned bucketSize weights) ∧
      ((weights.map Weight.name).Nodup → NcclAligned bucketSize weights → NcclAlignable bucketSize weights)) ∧
    (BucketedAlignable bucketSize useShm weights → BucketedAligned memory bucketSize useShm weights) ∧
    ((weights.map Weight.name).Nodup → BucketedAligned memory bucketSize useShm weights →
      BucketedAlignable bucketSize useShm weights) :=
  ⟨fun positive => ⟨nccl_aligned positive, nccl_alignable positive⟩, bucketed_aligned memory, bucketed_alignable⟩

private def gate : Weight := ⟨"gate", ⟨[1], ⟨"bfloat16", 2, Nat.two_pos⟩, [1, 2], rfl⟩, 0⟩

private def expert : Weight := ⟨"expert", ⟨[1], ⟨"float32", 4, Nat.succ_pos 3⟩, [3, 4, 5, 6], rfl⟩, 0⟩

/-- A `float32` weight behind a single `bfloat16` item is at offset 2, where it has no view. -/
theorem mixed_dtypes_not_aligned :
    ¬ NcclAligned 8 [gate, expert] ∧ ¬ BucketedAligned (fun _ => 0) 8 false [gate, expert] ∧
      receiveWeights (asyncSendWeights (fun _ => 0) 8 false [gate, expert]).1 = .error .runtimeError := by
  refine ⟨?_, ?_, by decide⟩
  · intro aligned
    obtain ⟨events, final, run, all⟩ := exists_complete (by decide) (show ([gate, expert].map Weight.name).Nodup by decide)
      (initial_started 8 [gate, expert])
    have atTwo := aligned _ events final (initial_started 8 [gate, expert]) run
      ({ expert.chunkMeta 0 4 with offset := some 2 }, [3, 4, 5, 6]) (by rw [all]; decide) (by decide) 2 rfl
    exact absurd atTwo (by decide)
  · intro aligned
    have atTwo := aligned _ List.mem_cons_self ("expert", placedAt 2 expert) (by decide) rfl
    exact absurd atTwo (by decide)

end LLMFusion.NcclCheckpointEngine
