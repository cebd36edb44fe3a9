import LLMFusion.Proofs.BucketAlignment
import LLMFusion.SharedBuffer

/-! Sender and receiver take turns: between a request and its answer the sender does not write, so
that the receiver finds in the buffer what was placed. The weights that are delivered, on their way
and still to come are always all weights in order. -/

namespace LLMFusion.BucketedWeightTransfer
open CheckpointEngine Runs Fallible List

variable {bucketSize : Nat} {useShm : Bool} {bucket : Bucket} {weight : Weight} {buffer : List UInt8}

def items (weights : List Weight) : List (String × Tensor) := weights.map (fun weight => (weight.name, weight.tensor))

/-! ### Entries in the buffer -/

def contents (buffer : List UInt8) (entries : List (String × TensorMetadata)) : List (String × Tensor) :=
  entries.filterMap (fun entry => (receiveTensor buffer entry).toOption)

@[simp] theorem contents_nil (buffer : List UInt8) : contents buffer [] = [] := rfl

@[simp] theorem contents_append (buffer : List UInt8) (entries entries' : List (String × TensorMetadata)) :
    contents buffer (entries ++ entries') = contents buffer entries ++ contents buffer entries' := by
  simp [contents]

variable {entry : String × TensorMetadata}

theorem contents_cons {received : String × Tensor}
    (found : receiveTensor buffer entry = .ok received) (entries : List (String × TensorMetadata)) :
    contents buffer (entry :: entries) = received :: contents buffer entries := by
  rw [contents, filterMap_cons, found]
  rfl

def Readable (buffer : List UInt8) (entries : List (String × TensorMetadata)) : Prop :=
  ∀ entry ∈ entries, ∃ received, receiveTensor buffer entry = .ok received

def Below (offset : Nat) (entry : String × TensorMetadata) : Prop :=
  entry.2.handle = none ∧ entry.2.offset + entry.2.dtype.itemsize * entry.2.shape.prod ≤ offset

theorem receiveTensor_direct (buffer : List UInt8) (bucket : Bucket) (weight : Weight) :
    ∀ entry ∈ (directSendLargeWeight bucket weight).bucketMeta,
      receiveTensor buffer entry = .ok (weight.name, weight.tensor) := by
  intro entry member
  rw [directSendLargeWeight, mem_singleton] at member
  rw [member]
  rfl

theorem receiveTensor_below {buffer' : List UInt8} {offset : Nat}
    (same : ∀ first last, last ≤ offset → Slices.slice buffer' first last = Slices.slice buffer first last)
    (below : Below offset entry) : receiveTensor buffer' entry = receiveTensor buffer entry := by
  have part := same entry.2.offset _ below.2
  rw [receiveTensor, receiveTensor, below.1]
  simp only [Chunk.slice, part]

theorem receiveTensor_placed {offset : Nat}
    (written : Slices.slice buffer offset (offset + weight.tensor.nbytes) = weight.tensor.bytes)
    (aligned : weight.tensor.dtype.itemsize ∣ offset) :
    receiveTensor buffer (weight.name, placedAt offset weight) = .ok (weight.name, weight.tensor) := by
  rw [Tensor.nbytes, Nat.mul_comm] at written
  have viewed : ((⟨0, buffer⟩ : Chunk).slice offset (offset + weight.tensor.dtype.itemsize * weight.tensor.shape.prod)).view
      weight.tensor.shape weight.tensor.dtype = .ok weight.tensor := by
    rw [Chunk.view, if_pos (by simpa [Chunk.slice] using aligned)]
    simp only [Chunk.slice, written]
    rw [dif_pos weight.tensor.sized]
  simp only [receiveTensor, placedAt, viewed, ok_bind]

theorem receiveTensor_name {received : String × Tensor}
    (found : receiveTensor buffer entry = .ok received) : received.1 = entry.1 := by
  rw [receiveTensor] at found
  split at found
  · cases found
    rfl
  · obtain ⟨tensor, _, found⟩ := bind_eq_ok.mp found
    cases found
    rfl

theorem readHeld_received {held : String × Held} (read : receiveEntry useShm buffer entry = .ok held) :
    ∃ received, receiveTensor buffer entry = .ok received ∧ readHeld buffer held = .ok received := by
  obtain ⟨received, found, read⟩ := bind_eq_ok.mp read
  refine ⟨received, found, ?_⟩
  cases read
  split
  · rfl
  · rw [readHeld, receiveTensor_name found]
    exact found

theorem receiveEntry_fails {failure : Failure}
    (read : receiveEntry useShm buffer entry = .error failure) : receiveTensor buffer entry = .error failure := by
  rw [receiveEntry] at read
  cases found : receiveTensor buffer entry with
  | error other =>
    rw [found, error_bind] at read
    cases read
    rfl
  | ok received =>
    rw [found] at read
    cases read

/-- The weight is placed behind the others, which stay as they are, or there is no room for it. -/
theorem putWeight_cases (useShm : Bool) (sound : bucket.Sound bucketSize) (weight : Weight)
    (fresh : weight.name ∉ bucket.bucketMeta.map Prod.fst) :
    (bucket.offset + weight.tensor.nbytes ≤ bucketSize ∧ ∃ next : Bucket,
      putWeight bucketSize useShm bucket weight = ([], .ok next) ∧ next.Sound bucketSize ∧
      next.offset = bucket.offset + weight.tensor.nbytes ∧
      next.bucketMeta = bucket.bucketMeta ++ [(weight.name, placedAt bucket.offset weight)] ∧
      Slices.slice next.buffer bucket.offset (bucket.offset + weight.tensor.nbytes) = weight.tensor.bytes ∧
      ∀ first last, last ≤ bucket.offset → Slices.slice next.buffer first last = Slices.slice bucket.buffer first last) ∨
    bucketSize < bucket.offset + weight.tensor.nbytes ∧ putWeight bucketSize useShm bucket weight =
      if useShm then ([], .error .assertionError) else ([directSendLargeWeight bucket weight], .ok bucket) := by
  rcases Nat.lt_or_ge bucketSize (bucket.offset + weight.tensor.nbytes) with full | fits
  · right
    exact ⟨full, by rw [putWeight, if_pos full]⟩
  · left
    have length : weight.tensor.bytes.length = weight.tensor.nbytes := weight.tensor.sized
    obtain ⟨buffer, written, size, here, before⟩ := Slices.assign_slices (Nat.le_add_right bucket.offset weight.tensor.nbytes)
      (Nat.le_trans fits (Nat.le_of_eq sound.buffer.symm)) (length.trans (Nat.add_sub_cancel_left _ _).symm)
    refine ⟨fits, ⟨buffer, Indexing.insert weight.name (placedAt bucket.offset weight) bucket.bucketMeta,
      bucket.offset + weight.tensor.nbytes⟩, ?_, ⟨size.trans sound.buffer, fits, ?_⟩, rfl, Indexing.insert_new fresh, here, before⟩
    · rw [putWeight, if_neg (Nat.not_lt.mpr fits), written]
    · exact fun nothing => absurd nothing (insert_ne_nil _ _ _)

/-! ### Turns -/

/-- Who goes on: the sender while no request is open, the receiver from a request to its answer. -/
inductive Turn : SenderPhase → List Request → Nat → ReceiverPhase → Prop where
  | starting : Turn .starting [] 0 .starting
  | filling : Turn .filling [] 0 .waiting
  | placing : Turn .placing [] 0 .waiting
  | done : Turn .done [] 0 .left
  | opening {behind : Behind} : Turn (.awaiting .commMetadata behind) [.commMetadata] 0 .starting
  | opened {behind : Behind} : Turn (.awaiting .commMetadata behind) [] 0 .opened
  | openAnswered {behind : Behind} : Turn (.awaiting .commMetadata behind) [] 1 .waiting
  | sent {metadata : Metadata} {behind : Behind} : Turn (.awaiting (.bucket metadata) behind) [.bucket metadata] 0 .waiting
  | reading {metadata : Metadata} {behind : Behind} {before left : List (String × TensorMetadata)} {weights : List (String × Held)}
    (whole : metadata.bucketMeta = before ++ left) : Turn (.awaiting (.bucket metadata) behind) [] 0 (.reading metadata left weights)
  | called {metadata : Metadata} {behind : Behind} : Turn (.awaiting (.bucket metadata) behind) [] 0 (.called metadata)
  | answered {metadata : Metadata} {behind : Behind} :
    Turn (.awaiting (.bucket metadata) behind) [] 1 (if metadata.isLast then .left else .waiting)

section Turns
variable {sender : SenderPhase} {requests : List Request} {answers : Nat} {receiver : ReceiverPhase} {metadata : Metadata}
  (turn : Turn sender requests answers receiver)
include turn

theorem Turn.at_start (starting : sender = .starting) : requests = [] ∧ answers = 0 ∧ receiver = .starting := by
  cases turn <;> first | exact ⟨rfl, rfl, rfl⟩ | cases starting

theorem Turn.own (own : sender = .filling ∨ sender = .placing) : requests = [] ∧ answers = 0 ∧ receiver = .waiting := by
  cases turn <;> first | exact ⟨rfl, rfl, rfl⟩ | simp at own

theorem Turn.resumed {request : Request} {behind : Behind} {rest : Nat} (awaiting : sender = .awaiting request behind)
    (answered : answers = rest + 1) : requests = [] ∧ rest = 0 ∧
      ((request = .commMetadata ∧ receiver = .waiting) ∨
        ∃ metadata, request = .bucket metadata ∧ receiver = if metadata.isLast then .left else .waiting) := by
  cases turn with
  | openAnswered =>
    cases awaiting
    exact ⟨rfl, (Nat.succ.inj answered).symm, Or.inl ⟨rfl, rfl⟩⟩
  | answered =>
    cases awaiting
    exact ⟨rfl, (Nat.succ.inj answered).symm, Or.inr ⟨_, rfl, rfl⟩⟩
  | starting | filling | placing | done => cases awaiting
  | opening | opened | sent | reading | called => cases answered

theorem Turn.at_opening {rest : List Request} (starting : receiver = .starting) (first : requests = .commMetadata :: rest) :
    ∃ behind, sender = .awaiting .commMetadata behind ∧ rest = [] ∧ answers = 0 := by
  cases turn with
  | opening =>
    cases first
    exact ⟨_, rfl, rfl, rfl⟩
  | sent => cases first
  | starting | filling | placing | done | opened | openAnswered | reading | called | answered => cases first

theorem Turn.at_opened (opened : receiver = .opened) :
    ∃ behind, sender = .awaiting .commMetadata behind ∧ requests = [] ∧ answers = 0 := by
  cases turn with
  | opened => exact ⟨_, rfl, rfl, rfl⟩
  | answered => split at opened <;> cases opened
  | starting | filling | placing | done | opening | openAnswered | sent | reading | called => cases opened

theorem Turn.at_sent {rest : List Request} (first : requests = .bucket metadata :: rest) :
    ∃ behind, sender = .awaiting (.bucket metadata) behind ∧ rest = [] ∧ answers = 0 := by
  cases turn with
  | sent =>
    cases first
    exact ⟨_, rfl, rfl, rfl⟩
  | opening => cases first
  | starting | filling | placing | done | opened | openAnswered | reading | called | answered => cases first

theorem Turn.at_reading {left : List (String × TensorMetadata)} {weights : List (String × Held)}
    (reading : receiver = .reading metadata left weights) : ∃ behind, sender = .awaiting (.bucket metadata) behind ∧
      requests = [] ∧ answers = 0 ∧ ∃ before, metadata.bucketMeta = before ++ left := by
  cases turn with
  | reading whole =>
    cases reading
    exact ⟨_, rfl, rfl, rfl, _, whole⟩
  | answered => split at reading <;> cases reading
  | starting | filling | placing | done | opening | opened | openAnswered | sent | called => cases reading

theorem Turn.at_called (called : receiver = .called metadata) :
    ∃ behind, sender = .awaiting (.bucket metadata) behind ∧ requests = [] ∧ answers = 0 := by
  cases turn with
  | called =>
    cases called
    exact ⟨_, rfl, rfl, rfl⟩
  | answered => split at called <;> cases called
  | starting | filling | placing | done | opening | opened | openAnswered | sent | reading => cases called

end Turns

/-! ### The bucket and the weights to come -/

/-- The bucket holds its entries, and the weights to come fit behind them. -/
structure Packed (bucketSize : Nat) (useShm : Bool) (bucket : Bucket) (weights : List Weight) : Prop where
  sound : bucket.Sound bucketSize
  names : (bucket.bucketMeta.map Prod.fst ++ weights.map Weight.name).Nodup
  below : ∀ entry ∈ bucket.bucketMeta, Below bucket.offset entry
  readable : Readable bucket.buffer bucket.bucketMeta
  aligned : ∀ weight ∈ weights, weight.tensor.dtype.itemsize ∣ bucket.offset
  divides : ∀ weight ∈ weights, ∀ other ∈ weights, weight.tensor.dtype.itemsize ∣ other.tensor.nbytes
  small : useShm = true → ∀ weight ∈ weights, weight.tensor.nbytes ≤ bucketSize

section Packing
variable {weights : List Weight}

theorem Packed.reset (packed : Packed bucketSize useShm bucket weights) : Packed bucketSize useShm bucket.reset weights where
  sound := packed.sound.reset
  names := (nodup_append.mp packed.names).2.1
  below := fun _ impossible => nomatch impossible
  readable := fun _ impossible => nomatch impossible
  aligned := fun _ _ => Nat.dvd_zero _
  divides := packed.divides
  small := packed.small

section
variable (packed : Packed bucketSize useShm bucket (weight :: weights))
include packed

theorem Packed.tail : Packed bucketSize useShm bucket weights where
  sound := packed.sound
  names := packed.names.sublist (List.Sublist.append_left (sublist_cons_self _ _) _)
  below := packed.below
  readable := packed.readable
  aligned := fun other member => packed.aligned other (mem_cons_of_mem _ member)
  divides := fun other member third member' =>
    packed.divides other (mem_cons_of_mem _ member) third (mem_cons_of_mem _ member')
  small := fun isShm other member => packed.small isShm other (mem_cons_of_mem _ member)

theorem Packed.fresh : weight.name ∉ bucket.bucketMeta.map Prod.fst := by
  intro present
  exact (nodup_append.mp packed.names).2.2 _ present _ mem_cons_self rfl

theorem Packed.place {next : Bucket}
    (put : putWeight bucketSize useShm bucket weight = ([], .ok next)) : Packed bucketSize useShm next weights ∧
      contents next.buffer next.bucketMeta = contents bucket.buffer bucket.bucketMeta ++ [(weight.name, weight.tensor)] ∧
      bucket.offset + weight.tensor.nbytes ≤ bucketSize := by
  rcases putWeight_cases useShm packed.sound weight packed.fresh with
    ⟨fits, next', put', sound, isOffset, isMeta, here, before⟩ | ⟨_, refused⟩
  · rw [put'] at put
    cases put
    have found := receiveTensor_placed here (packed.aligned weight mem_cons_self)
    have others : ∀ entry ∈ bucket.bucketMeta, receiveTensor next.buffer entry = receiveTensor bucket.buffer entry :=
      fun entry member => receiveTensor_below before (packed.below entry member)
    refine ⟨⟨sound, ?_, ?_, ?_, ?_, packed.tail.divides, packed.tail.small⟩, ?_, fits⟩
    · rw [isMeta, map_append, append_assoc]
      exact packed.names
    · rw [isMeta, isOffset]
      intro entry member
      cases mem_append.mp member with
      | inl old =>
        obtain ⟨noHandle, inside⟩ := packed.below entry old
        exact ⟨noHandle, Nat.le_add_right_of_le inside⟩
      | inr new =>
        rw [mem_singleton.mp new]
        refine ⟨rfl, ?_⟩
        rw [Tensor.nbytes, Nat.mul_comm]
        exact Nat.le_refl _
    · rw [isMeta]
      intro entry member
      cases mem_append.mp member with
      | inl old =>
        rw [others entry old]
        exact packed.readable entry old
      | inr new =>
        rw [mem_singleton.mp new]
        exact ⟨_, found⟩
    · intro other member
      rw [isOffset]
      apply Nat.dvd_add
      · exact packed.aligned other (mem_cons_of_mem _ member)
      · exact packed.divides other (mem_cons_of_mem _ member) weight mem_cons_self
    · rw [isMeta, contents_append, contents_cons found, contents_nil]
      congr 1
      apply filterMap_congr
      intro entry member
      rw [others entry member]
  · rw [refused] at put
    split at put <;> cases put

theorem Packed.sendDirectly {next : Bucket} {message : Message}
    (put : putWeight bucketSize useShm bucket weight = ([message], .ok next)) :
    bucketSize < bucket.offset + weight.tensor.nbytes ∧ message = directSendLargeWeight bucket weight := by
  rcases putWeight_cases useShm packed.sound weight packed.fresh with ⟨_, next', put', _⟩ | ⟨full, refused⟩
  · rw [put'] at put
    cases put
  · rw [refused] at put
    split at put
    · cases put
    · cases put
      exact ⟨full, rfl⟩

theorem Packed.not_refused (room : ¬ bucket.Full bucketSize weight)
    (messages : List Message) (failure : Failure) : putWeight bucketSize useShm bucket weight ≠ (messages, .error failure) := by
  intro put
  rcases putWeight_cases useShm packed.sound weight packed.fresh with ⟨_, next', put', _⟩ | ⟨full, refused⟩
  · rw [put'] at put
    cases put
  · rw [refused] at put
    split at put
    · rename_i isShm
      have isEmpty : bucket.bucketMeta = [] := by
        by_contra nonempty
        exact room ⟨full, nonempty⟩
      rw [packed.sound.empty isEmpty] at full
      have fits := packed.small isShm weight mem_cons_self
      omega
    · cases put

end

end Packing

/-! ### What holds at any time -/

def Asks (bucket : Bucket) (weights : List Weight) (request : Request) : Behind → Prop
  | .opened => request = .commMetadata
  | .flushed => request = .bucket ⟨bucket.bucketMeta, false⟩ ∧ weights ≠ []
  | .sentDirectly => bucket.bucketMeta = [] ∧ ∃ weight rest, weights = weight :: rest ∧
    request = .bucket ⟨(directSendLargeWeight bucket weight).bucketMeta, false⟩
  | .finished => request = .bucket ⟨bucket.bucketMeta, true⟩ ∧ weights = []

/-- Whose turn it is, what is in the bucket and what the receiver holds. -/
structure State.Sound (bucketSize : Nat) (useShm : Bool) (state : State) : Prop where
  turn : Turn state.sender state.requests state.answers state.receiver
  packed : Packed bucketSize useShm state.bucket state.weights
  placing : state.sender = .placing → state.bucket.bucketMeta = [] ∧ state.weights ≠ []
  asks : ∀ request behind, state.sender = .awaiting request behind → Asks state.bucket state.weights request behind
  holds : ∀ metadata left weights, state.receiver = .reading metadata left weights →
    ∀ held ∈ weights, ∃ received, readHeld state.bucket.buffer held = .ok received

section Steps
variable {state next : State} {event : Event} (sound : state.Sound bucketSize useShm)
include sound

theorem State.Sound.send {request : Request} {behind : Behind}
    (turn : Turn (.awaiting request behind) (state.requests ++ [request]) state.answers state.receiver)
    (asks : Asks state.bucket state.weights request behind) : (state.send request behind).Sound bucketSize useShm where
  turn := turn
  packed := sound.packed
  placing := fun impossible => nomatch impossible
  asks := by
    intro _ _ same
    cases same
    exact asks
  holds := sound.holds

theorem State.Sound.turn_send {metadata : Metadata} {behind : Behind} (own : state.sender = .filling ∨ state.sender = .placing) :
    Turn (.awaiting (.bucket metadata) behind) (state.requests ++ [.bucket metadata]) state.answers state.receiver := by
  obtain ⟨requests, answers, receiver⟩ := sound.turn.own own
  rw [requests, answers, receiver]
  exact .sent

theorem State.Sound.receiver {requests : List Request} {answers : Nat} {receiver : ReceiverPhase}
    {delivered : List (List (String × Tensor))} (turn : Turn state.sender requests answers receiver)
    (holds : ∀ metadata left weights, receiver = .reading metadata left weights →
      ∀ held ∈ weights, ∃ received, readHeld state.bucket.buffer held = .ok received) :
    State.Sound bucketSize useShm
      { state with requests := requests, answers := answers, receiver := receiver, delivered := delivered } where
  turn := turn
  packed := sound.packed
  placing := sound.placing
  asks := sound.asks
  holds := holds

theorem State.Sound.resume {request : Request} {behind : Behind} {answers : Nat} (awaiting : state.sender = .awaiting request behind)
    (answered : state.answers = answers + 1) : ({ state with answers := answers }.resume behind).Sound bucketSize useShm := by
  obtain ⟨requests, rfl, receiver⟩ := sound.turn.resumed awaiting answered
  have asks := sound.asks request behind awaiting
  have idle : ∀ metadata left weights, state.receiver ≠ .reading metadata left weights := by
    intro metadata left weights
    rcases receiver with ⟨_, isWaiting⟩ | ⟨last, _, behindLast⟩
    · simp [isWaiting]
    · rw [behindLast]
      split <;> simp
  have holds : ∀ bucket : Bucket, ∀ metadata left weights, state.receiver = .reading metadata left weights →
      ∀ held ∈ weights, ∃ received, readHeld bucket.buffer held = .ok received :=
    fun _ metadata left weights reading => absurd reading (idle metadata left weights)
  have waiting : ∀ metadata : Metadata, metadata.isLast = false → request = .bucket metadata → state.receiver = .waiting := by
    intro metadata notLast isRequest
    rcases receiver with ⟨isBuffer, _⟩ | ⟨other, isOther, isReceiver⟩
    · rw [isRequest] at isBuffer
      cases isBuffer
    · rw [isRequest] at isOther
      cases isOther
      rw [isReceiver, notLast]
      rfl
  cases behind with
  | opened =>
    refine ⟨?_, sound.packed, (fun impossible => nomatch impossible), (fun _ _ impossible => nomatch impossible), holds _⟩
    rcases receiver with ⟨_, isWaiting⟩ | ⟨metadata, isBucket, _⟩
    · simp only [State.resume, requests, isWaiting]
      exact .filling
    · cases asks.symm.trans isBucket
  | flushed =>
    refine ⟨?_, sound.packed.reset, (fun _ => ⟨rfl, asks.2⟩), (fun _ _ impossible => nomatch impossible), holds _⟩
    simp only [State.resume, requests, waiting _ rfl asks.1]
    exact .placing
  | sentDirectly =>
    obtain ⟨_, weight, rest, isNext, isRequest⟩ := asks
    have packed : Packed bucketSize useShm state.bucket state.weights.tail := by
      have packed := sound.packed
      rw [isNext] at packed ⊢
      exact packed.tail
    refine ⟨?_, packed, (fun impossible => nomatch impossible), (fun _ _ impossible => nomatch impossible), holds _⟩
    simp only [State.resume, requests, waiting _ rfl isRequest]
    exact .filling
  | finished =>
    refine ⟨?_, sound.packed, (fun impossible => nomatch impossible), (fun _ _ impossible => nomatch impossible), holds _⟩
    rcases receiver with ⟨isBuffer, _⟩ | ⟨metadata, isRequest, isReceiver⟩
    · rw [asks.1] at isBuffer
      cases isBuffer
    · rw [asks.1] at isRequest
      cases isRequest
      simp only [State.resume, requests, isReceiver, if_true]
      exact .done

theorem State.Sound.readable {metadata : Metadata} {behind : Behind} (awaiting : state.sender = .awaiting (.bucket metadata) behind) :
    Readable state.bucket.buffer metadata.bucketMeta := by
  have asks := sound.asks _ _ awaiting
  cases behind with
  | opened => cases asks
  | flushed =>
    cases asks.1
    exact sound.packed.readable
  | sentDirectly =>
    obtain ⟨_, weight, rest, _, isRequest⟩ := asks
    cases isRequest
    exact fun entry member => ⟨_, receiveTensor_direct _ state.bucket weight entry member⟩
  | finished =>
    cases asks.1
    exact sound.packed.readable

theorem State.Sound.read_ok {metadata : Metadata} {left : List (String × TensorMetadata)}
    {weights : List (String × Held)} (reading : state.receiver = .reading metadata (entry :: left) weights) :
    ∃ received, receiveTensor state.bucket.buffer entry = .ok received := by
  obtain ⟨behind, awaiting, _, _, before, whole⟩ := sound.turn.at_reading reading
  apply sound.readable awaiting
  rw [whole]
  exact mem_append_right _ mem_cons_self

/-- The bucket is full where the sender flushes it, so that it is not refused behind that. -/
theorem State.Sound.room {weight : Weight} (ready : state.sender = .placing ∨ state.sender = .filling ∧
    ¬ state.bucket.Full bucketSize weight) : ¬ state.bucket.Full bucketSize weight := by
  cases ready with
  | inl placing => exact fun full => full.2 (sound.placing placing).1
  | inr filling => exact filling.2

theorem State.Sound.step (taken : Step bucketSize useShm state event next) : next.Sound bucketSize useShm := by
  cases taken with
  | initBuffer starting =>
    obtain ⟨requests, answers, receiver⟩ := sound.turn.at_start starting
    apply sound.send
    · rw [requests, answers, receiver]
      exact .opening
    · exact rfl
  | acknowledged awaiting answered => exact sound.resume awaiting answered
  | flush filling isNext full =>
    apply sound.send (sound.turn_send (Or.inl filling))
    exact ⟨rfl, by simp [isNext]⟩
  | @place weight rest bucket isNext ready put =>
    have packed := sound.packed
    rw [isNext] at packed
    obtain ⟨requests, answers, receiver⟩ := sound.turn.own (ready.symm.imp_left And.left)
    refine ⟨?_, (packed.place put).1, (fun impossible => nomatch impossible), (fun _ _ impossible => nomatch impossible), ?_⟩
    · simp only [requests, answers, receiver]
      exact .filling
    · intro metadata left weights reading
      cases receiver.symm.trans reading
  | @sendDirectly weight rest bucket message isNext ready put =>
    have packed := sound.packed
    rw [isNext] at packed
    obtain ⟨full, rfl⟩ := packed.sendDirectly put
    apply sound.send (sound.turn_send (ready.symm.imp_left And.left))
    refine ⟨?_, weight, rest, isNext, rfl⟩
    by_contra nonempty
    exact sound.room ready ⟨full, nonempty⟩
  | refuse isNext ready put =>
    have packed := sound.packed
    rw [isNext] at packed
    exact absurd put (packed.not_refused (sound.room ready) _ _)
  | finish filling isNext =>
    apply sound.send (sound.turn_send (Or.inl filling))
    exact ⟨rfl, isNext⟩
  | receiveBuffer starting first =>
    obtain ⟨behind, awaiting, rfl, answers⟩ := sound.turn.at_opening starting first
    apply sound.receiver
    · rw [awaiting, answers]
      exact .opened
    · exact fun _ _ _ impossible => nomatch impossible
  | answerBuffer opened =>
    obtain ⟨behind, awaiting, requests, answers⟩ := sound.turn.at_opened opened
    apply sound.receiver
    · rw [awaiting, requests, answers]
      exact .openAnswered
    · exact fun _ _ _ impossible => nomatch impossible
  | receive waiting first =>
    obtain ⟨behind, awaiting, rfl, answers⟩ := sound.turn.at_sent first
    apply sound.receiver
    · rw [awaiting, answers]
      exact .reading (nil_append _).symm
    · intro _ _ _ isReading held member
      cases isReading
      cases member
  | @read metadata entry left weights weight reading received =>
    obtain ⟨behind, awaiting, requests, answers, before, whole⟩ := sound.turn.at_reading reading
    apply sound.receiver
    · rw [awaiting, requests, answers]
      exact .reading (whole.trans (append_cons before entry left))
    · intro _ _ _ isReading held member
      cases isReading
      cases mem_append.mp member with
      | inl old => exact sound.holds _ _ _ reading held old
      | inr new =>
        rw [mem_singleton.mp new]
        exact (readHeld_received received).imp (fun _ found => found.2)
  | readFails reading received =>
    obtain ⟨_, found⟩ := sound.read_ok reading
    rw [receiveEntry_fails received] at found
    cases found
  | callback reading found =>
    obtain ⟨behind, awaiting, requests, answers, _⟩ := sound.turn.at_reading reading
    apply sound.receiver
    · rw [awaiting, requests, answers]
      exact .called
    · exact fun _ _ _ impossible => nomatch impossible
  | @answer metadata called =>
    obtain ⟨behind, awaiting, requests, answers⟩ := sound.turn.at_called called
    apply sound.receiver
    · rw [awaiting, requests, answers]
      exact .answered
    · intro _ _ _ isReading
      split at isReading <;> cases isReading

end Steps

/-! ### The weights in order -/

def Request.entries : Request → List (String × TensorMetadata)
  | .commMetadata => []
  | .bucket metadata => metadata.bucketMeta

def heldContents (buffer : List UInt8) (weights : List (String × Held)) : List (String × Tensor) :=
  weights.filterMap (fun held => (readHeld buffer held).toOption)

def ReceiverPhase.obtained (buffer : List UInt8) : ReceiverPhase → List (String × Tensor)
  | .reading _ unread weights => heldContents buffer weights ++ contents buffer unread
  | _ => []

def unsent (bucket : Bucket) (weights : List Weight) : SenderPhase → List (String × Tensor)
  | .awaiting _ .flushed => items weights
  | .awaiting _ .sentDirectly => items weights.tail
  | .awaiting _ .finished | .done => []
  | _ => contents bucket.buffer bucket.bucketMeta ++ items weights

/-- What was delivered, what is on its way, and what is still to come. -/
def State.stream (state : State) : List (String × Tensor) :=
  state.delivered.flatten ++ (state.receiver.obtained state.bucket.buffer ++
    (state.requests.flatMap (fun request => contents state.bucket.buffer request.entries) ++
      unsent state.bucket state.weights state.sender))

theorem heldContents_all {weights : List (String × Held)} {tensors : List (String × Tensor)}
    (found : weights.mapM (readHeld buffer) = .ok tensors) : heldContents buffer weights = tensors := by
  have each := mapM_succeeded found
  clear found
  induction each with
  | nil => rfl
  | cons first _ ih =>
    rw [heldContents, filterMap_cons, first]
    exact congrArg _ ih

theorem State.stream_send {state : State} {request : Request} {behind : Behind}
    (moved : contents state.bucket.buffer request.entries ++ unsent state.bucket state.weights (.awaiting request behind) =
      unsent state.bucket state.weights state.sender) : (state.send request behind).stream = state.stream := by
  simp only [State.stream, State.send, flatMap_append, flatMap_singleton, append_assoc]
  rw [moved]

section Stream
variable {state next : State} {event : Event} (sound : state.Sound bucketSize useShm)
include sound

theorem State.Sound.stream_resume {request : Request} {behind : Behind} {answers : Nat}
    (awaiting : state.sender = .awaiting request behind) (answered : state.answers = answers + 1) :
    ({ state with answers := answers }.resume behind).stream = state.stream := by
  obtain ⟨requests, _, receiver⟩ := sound.turn.resumed awaiting answered
  have asks := sound.asks request behind awaiting
  have obtained : ∀ buffer, state.receiver.obtained buffer = [] := by
    intro buffer
    rcases receiver with ⟨_, isWaiting⟩ | ⟨_, _, isReceiver⟩
    · rw [isWaiting]
      rfl
    · rw [isReceiver]
      split <;> rfl
  have left : ∀ bucket : Bucket, ∀ weights sender,
      State.stream { state with bucket := bucket, weights := weights, sender := sender, answers := answers } =
        state.delivered.flatten ++ unsent bucket weights sender := by
    intro bucket weights sender
    simp only [State.stream, obtained, requests, flatMap_nil, nil_append]
  have here : state.stream = state.delivered.flatten ++ unsent state.bucket state.weights state.sender := by
    simp only [State.stream, obtained, requests, flatMap_nil, nil_append]
  rw [here, awaiting]
  cases behind with
  | opened => exact left state.bucket state.weights .filling
  | flushed => exact left state.bucket.reset state.weights .placing
  | sentDirectly =>
    refine (left state.bucket state.weights.tail .filling).trans ?_
    rw [unsent, unsent, asks.1]
    · rfl
    all_goals simp
  | finished => exact left state.bucket state.weights .done

theorem State.Sound.stream_step (taken : Step bucketSize useShm state event next) : next.stream = state.stream := by
  cases taken with
  | initBuffer starting =>
    apply State.stream_send
    rw [starting]
    rfl
  | acknowledged awaiting answered => exact sound.stream_resume awaiting answered
  | flush filling isNext full =>
    apply State.stream_send
    rw [filling]
    rfl
  | @place weight rest bucket isNext ready put =>
    have packed := sound.packed
    rw [isNext] at packed
    obtain ⟨requests, answers, receiver⟩ := sound.turn.own (ready.symm.imp_left And.left)
    have before : unsent state.bucket state.weights state.sender =
        contents state.bucket.buffer state.bucket.bucketMeta ++ items (weight :: rest) := by
      rw [isNext]
      rcases ready with placing | filling
      · rw [placing]
        rfl
      · rw [filling.1]
        rfl
    have moved : unsent bucket rest .filling = contents state.bucket.buffer state.bucket.bucketMeta ++ items (weight :: rest) := by
      rw [unsent, (packed.place put).2.1, append_assoc]
      · rfl
      all_goals simp
    simp only [State.stream, requests, receiver, before, moved]
    rfl
  | @sendDirectly weight rest bucket message isNext ready put =>
    have packed := sound.packed
    rw [isNext] at packed
    obtain ⟨full, rfl⟩ := packed.sendDirectly put
    have isEmpty : state.bucket.bucketMeta = [] := by
      by_contra nonempty
      exact sound.room ready ⟨full, nonempty⟩
    apply State.stream_send
    rw [isNext]
    rcases ready with placing | filling
    · rw [placing, unsent, unsent, isEmpty]
      · rfl
      all_goals simp
    · rw [filling.1, unsent, unsent, isEmpty]
      · rfl
      all_goals simp
  | refuse isNext ready put =>
    have packed := sound.packed
    rw [isNext] at packed
    exact absurd put (packed.not_refused (sound.room ready) _ _)
  | finish filling isNext =>
    apply State.stream_send
    rw [filling, isNext]
    rfl
  | receiveBuffer starting first =>
    simp only [State.stream, starting, first]
    rfl
  | answerBuffer opened =>
    simp only [State.stream, opened]
    rfl
  | receive waiting first =>
    simp only [State.stream, waiting, first, flatMap_cons, append_assoc]
    rfl
  | @read metadata entry left weights weight reading received =>
    obtain ⟨tensor, found, again⟩ := readHeld_received received
    have obtained : (ReceiverPhase.reading metadata left (weights ++ [weight])).obtained state.bucket.buffer =
        state.receiver.obtained state.bucket.buffer := by
      rw [reading, ReceiverPhase.obtained, ReceiverPhase.obtained, contents_cons found, heldContents, heldContents,
        filterMap_append, append_assoc, filterMap_cons, again]
      rfl
    simp only [State.stream, obtained]
  | readFails reading received =>
    obtain ⟨_, found⟩ := sound.read_ok reading
    rw [receiveEntry_fails received] at found
    cases found
  | callback reading found =>
    simp only [State.stream, reading, ReceiverPhase.obtained, heldContents_all found, flatten_append, append_assoc,
      flatten_singleton, contents_nil, nil_append]
  | answer called =>
    simp only [State.stream, called]
    split <;> rfl

end Stream

end LLMFusion.BucketedWeightTransfer
