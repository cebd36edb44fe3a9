import LLMFusion.TeacherLoop
import LLMFusion.Proofs.Padding
import Mathlib.Algebra.Order.Field.Rat

/-! The teacher's distribution for the next token beside the student's logits for it, through padding
and packing. -/

namespace LLMFusion.TeacherLoop
open List hiding mapM_map Vector
open Indexing Padding Fallible Slices Fallible

variable {K : Type}

/-! ### The server -/

/-- What a teacher says of the next token after some tokens: the log probability of each token, and
the tokens by their ranks. -/
structure Teacher (K : Type) where
  logProb : List Nat → Nat → K
  ranked : List Nat → List (Nat × K)

/-- What is asked of the teacher about a token: its own log probability, or the best ones. -/
def Teacher.target (teacher : Teacher K) (numLogprobs : Nat) (before : List Nat) (token : Nat) : List (Nat × K) :=
  if numLogprobs = 0 then [(token, teacher.logProb before token)] else (teacher.ranked before).take numLogprobs

/-- The entries for a token: the token itself comes first, or every rank is there and the token may
be there besides. -/
structure Ranked (teacher : Teacher K) (numLogprobs : Nat) (before : List Nat) (token : Nat)
    (entries : List (Nat × Logprob K)) : Prop where
  own : numLogprobs = 0 → entries.head?.map (fun entry => (entry.1, entry.2.logprob)) = some (token, teacher.logProb before token)
  count : numLogprobs ≠ 0 → entries.length = numLogprobs ∨ entries.length = numLogprobs + 1
  rank : numLogprobs ≠ 0 → ∀ entry ∈ entries, 0 < entry.2.rank ∧
    (entry.2.rank ≤ numLogprobs → (teacher.ranked before)[entry.2.rank - 1]? = some (entry.1, entry.2.logprob))
  full : numLogprobs ≠ 0 → ∀ rank < numLogprobs, ∃ entry ∈ entries, entry.2.rank = rank + 1

/-- The engine gives the ranked log probabilities of every token but the first, given those before it. -/
def Answers (teacher : Teacher K) (numLogprobs : Nat) (promptLogprobs : List Nat → PromptLogprobs K) : Prop :=
  ∀ tokens, tokens ≠ [] → ∃ later : List (List (Nat × Logprob K)),
    promptLogprobs tokens = none :: later.map some ∧ later.length + 1 = tokens.length ∧
    ∀ place entries token, later[place]? = some entries → tokens[place + 1]? = some token →
      Ranked teacher numLogprobs (tokens.take (place + 1)) token entries

variable {α : Type} {entries : List (Nat × Logprob K)}

theorem setItems_written (values : List α) (value : Nat × Logprob K → α)
    (named : ∀ entry ∈ entries, 0 < entry.2.rank ∧ values[entry.2.rank - 1]? = some (value entry))
    (full : ∀ rank < values.length, ∃ entry ∈ entries, entry.2.rank = rank + 1) :
    setItems (entries.map (fun entry => ((entry.2.rank : Int) - 1, some (value entry)))) (replicate values.length none) =
      some (values.map some) := by
  have place : ∀ entry ∈ entries, position values.length ((entry.2.rank : Int) - 1) = some (entry.2.rank - 1) := by
    intro entry member
    obtain ⟨positive, found⟩ := named entry member
    have inside := (List.getElem?_eq_some_iff.mp found).1
    have index : (entry.2.rank : Int) - 1 = (entry.2.rank - 1 : Nat) := by omega
    rw [index, position_of_nat inside]
  obtain ⟨result, written⟩ : ∃ result, setItems (entries.map (fun entry => ((entry.2.rank : Int) - 1, some (value entry))))
      (replicate values.length none) = some result := by
    apply setItems_isSome
    intro write member
    obtain ⟨entry, among, rfl⟩ := mem_map.mp member
    rw [length_replicate, place entry among]
    rfl
  rw [written, Option.some_inj]
  have size := setItems_length written
  rw [length_replicate] at size
  apply ext_getElem (by rw [size, length_map])
  intro rank inside _
  have here : rank < values.length := size ▸ inside
  rw [← Option.some_inj, ← List.getElem?_eq_getElem, getElem_map]
  apply setItems_value written (by rwa [length_replicate])
  · intro write member found
    obtain ⟨entry, among, rfl⟩ := mem_map.mp member
    rw [length_replicate, place entry among, Option.some_inj] at found
    have same := (named entry among).2
    rw [found, List.getElem?_eq_getElem here] at same
    exact same.symm
  · right
    obtain ⟨entry, among, same⟩ := full rank here
    refine ⟨_, mem_map_of_mem among, ?_⟩
    rw [length_replicate, place entry among, same, Nat.add_sub_cancel]

theorem target_length {teacher : Teacher K} {numLogprobs : Nat} {before : List Nat} {token : Nat}
    (ranked : Ranked teacher numLogprobs before token entries) :
    (teacher.target numLogprobs before token).length = max numLogprobs 1 := by
  by_cases own : numLogprobs = 0
  · simp [Teacher.target, own]
  · rw [Teacher.target, if_neg own, length_take]
    obtain ⟨entry, among, last⟩ := ranked.full own (numLogprobs - 1) (by omega)
    have found := (ranked.rank own entry among).2 (by omega)
    have inside := (List.getElem?_eq_some_iff.mp found).1
    omega

theorem extractRow_ranked {teacher : Teacher K} {numLogprobs : Nat} {before : List Nat} {token : Nat}
    (ranked : Ranked teacher numLogprobs before token entries) :
    extractRow numLogprobs (some entries) = .ok ((teacher.target numLogprobs before token).map (some ∘ Prod.fst),
      (teacher.target numLogprobs before token).map (some ∘ Prod.snd)) := by
  have length := target_length ranked
  by_cases own : numLogprobs = 0
  · have first := ranked.own own
    cases entries with
    | nil => cases first
    | cons entry entries =>
      simp only [head?_cons, Option.map_some, Option.some.injEq, Prod.mk.injEq] at first
      simp [extractRow, own, Teacher.target, first]
  · have named : ∀ entry ∈ entries.filter (fun entry => entry.2.rank ≤ numLogprobs), 0 < entry.2.rank ∧
        (teacher.target numLogprobs before token)[entry.2.rank - 1]? = some (entry.1, entry.2.logprob) := by
      intro entry member
      obtain ⟨among, best⟩ := mem_filter.mp member
      obtain ⟨positive, found⟩ := ranked.rank own entry among
      have best := of_decide_eq_true best
      refine ⟨positive, ?_⟩
      rw [Teacher.target, if_neg own, List.getElem?_take, if_pos (by omega)]
      exact found best
    have size : (teacher.target numLogprobs before token).length = numLogprobs := by omega
    have full : ∀ rank < (teacher.target numLogprobs before token).length,
        ∃ entry ∈ entries.filter (fun entry => entry.2.rank ≤ numLogprobs), entry.2.rank = rank + 1 := by
      intro rank inside
      obtain ⟨entry, among, same⟩ := ranked.full own rank (by omega)
      exact ⟨entry, mem_filter.mpr ⟨among, decide_eq_true (by omega)⟩, same⟩
    have ids := setItems_written ((teacher.target numLogprobs before token).map Prod.fst) Prod.fst
      (fun entry member => ⟨(named entry member).1, by rw [List.getElem?_map, (named entry member).2]; rfl⟩)
      (by rwa [length_map])
    have logprobs := setItems_written ((teacher.target numLogprobs before token).map Prod.snd) (fun entry => entry.2.logprob)
      (fun entry member => ⟨(named entry member).1, by rw [List.getElem?_map, (named entry member).2]; rfl⟩)
      (by rwa [length_map])
    rw [length_map, size, map_map] at ids logprobs
    simp only [extractRow, if_neg own, if_pos (ranked.count own), ids, logprobs]

/-! ### The fields of a sequence -/

/-- Beside each token the target for the next one, and a dummy beside the last token. -/
def targets [Zero K] (teacher : Teacher K) (numLogprobs : Nat) (tokens : List Nat) : List (List (Nat × K)) :=
  (List.range tokens.length).map (fun place =>
    match tokens[place + 1]? with
    | some token => teacher.target numLogprobs (tokens.take (place + 1)) token
    | none => List.replicate (max numLogprobs 1) (0, 0))

theorem lookup_resolved {manager : AsyncTeacherLLMServerManager K} {routingKey : Option String} {key : String}
    (resolved : manager.resolveTeacherKey routingKey = .ok key) : ∃ model, manager.teacherModels.lookup key = some model := by
  unfold AsyncTeacherLLMServerManager.resolveTeacherKey at resolved
  split at resolved
  · rename_i single model only
    cases resolved
    exact ⟨model, by rw [only, lookup_cons_self]⟩
  · split at resolved
    · cases resolved
    · split at resolved
      · rename_i served
        cases resolved
        exact Option.isSome_iff_exists.mp served
      · cases resolved

section Sequence
variable [Zero K] {teacher : Teacher K} {numLogprobs : Nat} {promptLogprobs : List Nat → PromptLogprobs K}

theorem targets_width (answers : Answers teacher numLogprobs promptLogprobs) {tokens : List Nat} {row : List (Nat × K)}
    (member : row ∈ targets teacher numLogprobs tokens) : row.length = max numLogprobs 1 := by
  obtain ⟨place, inside, rfl⟩ := mem_map.mp member
  have inside := mem_range.mp inside
  split
  · rename_i token next
    obtain ⟨later, _, count, ranked⟩ := answers tokens (ne_nil_of_length_pos (by omega))
    have bound := (List.getElem?_eq_some_iff.mp next).1
    obtain ⟨entries, found⟩ : ∃ entries, later[place]? = some entries := ⟨_, List.getElem?_eq_getElem (by omega)⟩
    exact target_length (ranked place entries token found next)
  · exact length_replicate

theorem extractPromptLogprobs_targets (answers : Answers teacher numLogprobs promptLogprobs) {tokens : List Nat}
    (nonempty : tokens ≠ []) : extractPromptLogprobs (promptLogprobs tokens) (some numLogprobs) =
      .ok (some ⟨(targets teacher numLogprobs tokens).map (map (some ∘ Prod.fst)),
        (targets teacher numLogprobs tokens).map (map (some ∘ Prod.snd))⟩) := by
  obtain ⟨later, returned, count, ranked⟩ := answers tokens nonempty
  have rows : (later.map some).mapM (extractRow numLogprobs) = .ok ((range later.length).map (fun place =>
      let row := teacher.target numLogprobs (tokens.take (place + 1)) (tokens.getD (place + 1) 0)
      (row.map (some ∘ Prod.fst), row.map (some ∘ Prod.snd)))) := by
    have listed : later.map some = (range later.length).map (fun place => later[place]?) := by
      apply ext_getElem (by simp)
      intro place _ _
      simp
    rw [listed, List.mapM_map]
    apply mapM_map
    intro place member
    have inside := mem_range.mp member
    have next : tokens[place + 1]? = some (tokens.getD (place + 1) 0) := by
      rw [getD_eq_getElem?_getD, List.getElem?_eq_getElem (by omega), Option.getD_some]
    rw [Function.comp_apply, List.getElem?_eq_getElem inside]
    exact extractRow_ranked (ranked place _ _ (List.getElem?_eq_getElem inside) next)
  have shape : targets teacher numLogprobs tokens = (range later.length).map (fun place =>
      teacher.target numLogprobs (tokens.take (place + 1)) (tokens.getD (place + 1) 0)) ++
      [replicate (max numLogprobs 1) (0, 0)] := by
    rw [targets, ← count, range_succ, map_append, map_singleton, List.getElem?_eq_none (by omega)]
    congr 1
    apply map_congr_left
    intro place member
    have inside := mem_range.mp member
    rw [List.getElem?_eq_getElem (by omega), getD_eq_getElem?_getD, List.getElem?_eq_getElem (by omega),
      Option.getD_some]
  rw [extractPromptLogprobs, returned, tail_cons, rows, ok_bind, shape]
  simp only [map_append, map_map, map_cons, map_nil, map_replicate, Function.comp_def]
  rfl

theorem toTensor_some {rows : List (List α)} (width : Nat) (widths : ∀ row ∈ rows, row.length = width) :
    toTensor (rows.map (map some)) = .ok rows := by
  have each : (rows.map (map some)).mapM (fun row => row.mapM id) = some rows := by
    rw [List.mapM_map]
    have copied : rows.mapM (fun row => (row.map some).mapM id) = some (rows.map id) := by
      apply mapM_some
      intro row _
      rw [List.mapM_map]
      exact (mapM_some id (fun _ _ => rfl)).trans (by rw [map_id]; rfl)
    rwa [map_id] at copied
  simp only [toTensor, each]
  apply if_pos
  intro row member
  cases rows with
  | nil => cases member
  | cons first rows => rw [widths row member, headD_cons, widths first mem_cons_self]

variable [One K] [DecidableEq K] {manager : AsyncTeacherLLMServerManager K}

/-- A manager whose teachers, by their keys, answer as described. -/
structure Serves (manager : AsyncTeacherLLMServerManager K) (teachers : String → Teacher K) (numLogprobs : Nat) : Prop where
  asked : (if manager.useTopk then manager.topk else some 0) = some numLogprobs
  temperature : ∀ entry ∈ manager.teacherModels, entry.2.temperature = 1
  answers : ∀ key model, manager.teacherModels.lookup key = some model →
    Answers (teachers key) numLogprobs (fun tokens => model.promptLogprobs tokens (some numLogprobs))

theorem computeTeacherLogprobsSingle_targets {teachers : String → Teacher K} (serves : Serves manager teachers numLogprobs)
    {routingKey : Option String} {key : String} (resolved : manager.resolveTeacherKey routingKey = .ok key)
    {tokens : List Nat} (nonempty : tokens ≠ []) : manager.computeTeacherLogprobsSingle tokens routingKey =
      .ok ((targets (teachers key) numLogprobs tokens).map (map Prod.fst),
        (targets (teachers key) numLogprobs tokens).map (map Prod.snd)) := by
  obtain ⟨model, found⟩ := lookup_resolved resolved
  have answers := serves.answers key model found
  have plain := serves.temperature _ (mem_of_lookup found)
  have params : getTeacherSamplingParams model.temperature manager.useTopk manager.topk = .ok (some numLogprobs) := by
    rw [getTeacherSamplingParams, if_neg (not_not_intro plain), serves.asked]
  have ids : toTensor ((targets (teachers key) numLogprobs tokens).map (map (some ∘ Prod.fst))) =
      .ok ((targets (teachers key) numLogprobs tokens).map (map Prod.fst)) := by
    rw [← toTensor_some (max numLogprobs 1) (by
      intro row member
      obtain ⟨target, among, rfl⟩ := mem_map.mp member
      rw [length_map, targets_width answers among]), map_map]
    simp only [Function.comp_def, map_map]
  have logprobs : toTensor ((targets (teachers key) numLogprobs tokens).map (map (some ∘ Prod.snd))) =
      .ok ((targets (teachers key) numLogprobs tokens).map (map Prod.snd)) := by
    rw [← toTensor_some (max numLogprobs 1) (by
      intro row member
      obtain ⟨target, among, rfl⟩ := mem_map.mp member
      rw [length_map, targets_width answers among]), map_map]
    simp only [Function.comp_def, map_map]
  rw [AsyncTeacherLLMServerManager.computeTeacherLogprobsSingle, resolved, ok_bind]
  simp only [found, params, ok_bind, extractPromptLogprobs_targets answers nonempty, ids, logprobs]
  rw [if_pos (by simp [targets])]
  rfl

end Sequence

/-! ### The batch -/

theorem rowVector_some {width : Nat} {row : List α} (fits : row.length = width) :
    ∃ vector, rowVector width row = some vector ∧ vector.toList = row := by
  have size : row.toArray.size = width := by rw [size_toArray, fits]
  exact ⟨⟨row.toArray, size⟩, dif_pos size, rfl⟩

theorem stackRows_ok {batch : Nat} (width : Nat) {rows : List (List α)} (count : rows.length = batch)
    (widths : ∀ row ∈ rows, row.length = width) : ∃ padded, stackRows batch width rows = .ok padded ∧ Padding.rows padded = rows := by
  obtain ⟨vectors, built, kept⟩ : ∃ vectors, rows.mapM (rowVector width) = some vectors ∧ vectors.map Vector.toList = rows := by
    clear count
    induction rows with
    | nil => exact ⟨[], rfl, rfl⟩
    | cons row rows ih =>
      obtain ⟨vector, first, same⟩ := rowVector_some (widths row mem_cons_self)
      obtain ⟨vectors, later, kept⟩ := ih (fun row member => widths row (mem_cons_of_mem _ member))
      exact ⟨vector :: vectors, by rw [mapM_cons, first, later]; rfl, by rw [map_cons, same, kept]⟩
  have size : vectors.length = batch := by rw [← count, ← kept, length_map]
  obtain ⟨padded, whole, same⟩ := rowVector_some size
  refine ⟨padded, ?_, ?_⟩
  · simp only [stackRows, built, whole]
  · rw [Padding.rows, same, kept]

theorem padRows_nat (left right : Nat) (value : α) (rows : List (List α)) :
    padRows left right value rows = replicate left (replicate (rows.headD []).length value) ++ rows ++
      replicate right (replicate (rows.headD []).length value) := by
  have noLeft : (-(left : Int)).toNat = 0 := by omega
  have noRight : (-(right : Int)).toNat = 0 := by omega
  simp only [padRows, noLeft, noRight, Int.toNat_natCast, Nat.sub_zero, take_length, drop_zero]

theorem padRows_tokens {promptWidth responseWidth : Nat} {lens : Nat × Nat} {rows : List (List α)} (value : α)
    (prompt : lens.1 ≤ promptWidth) (response : lens.2 ≤ responseWidth) (length : rows.length = lens.1 + lens.2) :
    (padRows ((promptWidth : Int) - lens.1) ((responseWidth : Int) - lens.2) value rows).length = promptWidth + responseWidth ∧
      Masking.select (leftRightMask promptWidth responseWidth lens)
        (padRows ((promptWidth : Int) - lens.1) ((responseWidth : Int) - lens.2) value rows) = rows := by
  have left : (promptWidth : Int) - lens.1 = (promptWidth - lens.1 : Nat) := by omega
  have right : (responseWidth : Int) - lens.2 = (responseWidth - lens.2 : Nat) := by omega
  rw [leftRightMask_select _ prompt, left, right, padRows_nat]
  constructor
  · simp only [length_append, length_replicate, length]
    omega
  · have stop : promptWidth + lens.2 = promptWidth - lens.1 + rows.length := by omega
    have shifted := slice_shift (replicate (promptWidth - lens.1) (replicate (rows.headD []).length value))
      (rows ++ replicate (responseWidth - lens.2) (replicate (rows.headD []).length value)) 0 rows.length
    rw [length_replicate, Nat.add_zero] at shifted
    rw [append_assoc, stop, shifted, slice_append_left _ _ _ _ (Nat.le_refl _), slice_full _ _ (Nat.le_refl _)]

section Batch
variable {batch promptWidth responseWidth : Nat} (data : LeftRight Nat K batch promptWidth responseWidth)

/-- The prompts and responses of a batch with the keys of their teachers. -/
def samples (keys : Vector (Option String) batch) : List Sample :=
  List.zipWith (fun (len, tokens) key => ⟨tokens.take len.1, tokens.drop len.1, key⟩) (data.lens.toList.zip data.tokens) keys.toList

theorem samples_at (keys : Vector (Option String) batch) {index : Nat} (inside : index < batch) {tokens : List Nat}
    (named : data.tokens[index]? = some tokens) : (samples data keys)[index]? =
      some ⟨tokens.take data.lens[index].1, tokens.drop data.lens[index].1, keys[index]⟩ := by
  have lens : data.lens.toList[index]? = some data.lens[index] := by simp [inside]
  have key : keys.toList[index]? = some keys[index] := by simp [inside]
  simp only [samples, List.getElem?_zipWith, zip_eq_zipWith, lens, named, key]

theorem samples_length (keys : Vector (Option String) batch) : (samples data keys).length = batch := by
  simp [samples, data.tokens_length]

/-- Padded fields, with the values of the tokens between the paddings, are stacked, and packing
gives the values back. -/
theorem stackRows_tokens {fields values : List (List (List α))} (value : α) (count : fields.length = batch)
    (count' : values.length = batch) (padded : ∀ index (_ : index < batch), ∃ rows, values[index]? = some rows ∧
      rows.length = data.lens[index].1 + data.lens[index].2 ∧ fields[index]? = some
        (padRows ((promptWidth : Int) - data.lens[index].1) ((responseWidth : Int) - data.lens[index].2) value rows)) :
    ∃ stacked, stackRows batch (promptWidth + responseWidth) fields = .ok stacked ∧
      validRows data.attentionMask stacked = ⟨values⟩ := by
  have tokens : ∀ index (_ : index < batch), ∃ rows field, values[index]? = some rows ∧ fields[index]? = some field ∧
      field.length = promptWidth + responseWidth ∧
      Masking.select (leftRightMask promptWidth responseWidth data.lens[index]) field = rows := by
    intro index inside
    obtain ⟨rows, found, length, field⟩ := padded index inside
    have member : data.lens[index] ∈ data.lens.toList := by simp
    obtain ⟨width, kept⟩ := padRows_tokens value (data.prompts _ member).2 (data.responses _ member) length
    exact ⟨rows, _, found, field, width, kept⟩
  obtain ⟨stacked, built, same⟩ := stackRows_ok (promptWidth + responseWidth) count (by
    intro field member
    obtain ⟨index, inside, rfl⟩ := mem_iff_getElem.mp member
    obtain ⟨_, _, _, found, width, _⟩ := tokens index (count ▸ inside)
    rw [List.getElem?_eq_getElem inside, Option.some_inj] at found
    rw [found, width])
  refine ⟨stacked, built, ?_⟩
  rw [validRows, same, data.masks, Nested.mk.injEq]
  apply ext_getElem?
  intro index
  by_cases inside : index < batch
  · obtain ⟨rows, field, found, found', _, kept⟩ := tokens index inside
    have lens : data.lens.toList[index]? = some data.lens[index] := by simp [inside]
    simp only [List.getElem?_zipWith, List.getElem?_map, lens, Option.map_some, found, found', kept]
  · rw [List.getElem?_eq_none (by simp [count]; omega), List.getElem?_eq_none (by omega)]

variable [Zero K]

def batchTargets (teachers : String → Teacher K) (numLogprobs : Nat) (names : Vector String batch) : List (List (List (Nat × K))) :=
  List.zipWith (fun name tokens => targets (teachers name) numLogprobs tokens) names.toList data.tokens

theorem batchTargets_at (teachers : String → Teacher K) (numLogprobs : Nat) (names : Vector String batch) {index : Nat}
    (inside : index < batch) {tokens : List Nat} (named : data.tokens[index]? = some tokens) :
    (batchTargets data teachers numLogprobs names)[index]? = some (targets (teachers names[index]) numLogprobs tokens) := by
  have name : names.toList[index]? = some names[index] := by simp [inside]
  simp only [batchTargets, List.getElem?_zipWith, name, named]

theorem batchTargets_length (teachers : String → Teacher K) (numLogprobs : Nat) (names : Vector String batch) :
    (batchTargets data teachers numLogprobs names).length = batch := by
  rw [batchTargets, length_zipWith, Vector.length_toList, data.tokens_length, Nat.min_self]

variable [One K] [DecidableEq K] {manager : AsyncTeacherLLMServerManager K} {numLogprobs : Nat}

theorem teacherFields_targets {teachers : String → Teacher K} (serves : Serves manager teachers numLogprobs)
    {keys : Vector (Option String) batch} {names : Vector String batch} (padTokenId : Nat) {index : Nat} (inside : index < batch)
    (resolved : manager.resolveTeacherKey keys[index] = .ok names[index]) {tokens : List Nat}
    (named : data.tokens[index]? = some tokens) : teacherFields manager promptWidth responseWidth padTokenId
        ⟨tokens.take data.lens[index].1, tokens.drop data.lens[index].1, keys[index]⟩ =
      .ok (padRows ((promptWidth : Int) - data.lens[index].1) ((responseWidth : Int) - data.lens[index].2) padTokenId
          ((targets (teachers names[index]) numLogprobs tokens).map (map Prod.fst)),
        padRows ((promptWidth : Int) - data.lens[index].1) ((responseWidth : Int) - data.lens[index].2) 0
          ((targets (teachers names[index]) numLogprobs tokens).map (map Prod.snd))) := by
  obtain ⟨tokens', named', length⟩ := data.tokens_at inside
  cases named.symm.trans named'
  have member : data.lens[index] ∈ data.lens.toList := by simp
  have prompt := (data.prompts _ member).1
  have nonempty : tokens ≠ [] := ne_nil_of_length_pos (by omega)
  have promptLength : (tokens.take data.lens[index].1).length = data.lens[index].1 := by
    rw [length_take]
    omega
  have responseLength : (tokens.drop data.lens[index].1).length = data.lens[index].2 := by
    rw [length_drop]
    omega
  simp only [teacherFields, take_append_drop, computeTeacherLogprobsSingle_targets serves resolved nonempty, ok_bind,
    padTeacherOutputs, promptLength, responseLength]
  rfl

theorem withTeacher_targets {teachers : String → Teacher K} (serves : Serves manager teachers numLogprobs)
    {keys : Vector (Option String) batch} {names : Vector String batch} (padTokenId : Nat)
    (resolved : ∀ index (_ : index < batch), manager.resolveTeacherKey keys[index] = .ok names[index]) :
    ∃ ids logprobs, withTeacher manager padTokenId (samples data keys) data.tensorDict =
        .ok { data.tensorDict with teacherIds := some ids, teacherLogprobs := some logprobs } ∧
      validRows data.attentionMask ids = ⟨(batchTargets data teachers numLogprobs names).map (map (map Prod.fst))⟩ ∧
      validRows data.attentionMask logprobs = ⟨(batchTargets data teachers numLogprobs names).map (map (map Prod.snd))⟩ := by
  obtain ⟨fields, computed, related⟩ : ∃ fields,
      (samples data keys).mapM (teacherFields manager promptWidth responseWidth padTokenId) = .ok fields ∧
        List.Forall₂ (fun sample fields => teacherFields manager promptWidth responseWidth padTokenId sample = .ok fields)
          (samples data keys) fields := by
    apply mapM_ok
    intro sample member
    obtain ⟨index, bound, rfl⟩ := mem_iff_getElem.mp member
    have inside : index < batch := by rwa [samples_length] at bound
    obtain ⟨tokens, named, _⟩ := data.tokens_at inside
    have found := samples_at data keys inside named
    rw [List.getElem?_eq_getElem bound, Option.some_inj] at found
    rw [found, teacherFields_targets data serves padTokenId inside (resolved index inside) named]
    exact ⟨_, rfl, rfl⟩
  have count : fields.length = batch := by rw [← related.length_eq, samples_length]
  have fieldsAt : ∀ index (_ : index < batch) (tokens : List Nat), data.tokens[index]? = some tokens → fields[index]? = some
      (padRows ((promptWidth : Int) - data.lens[index].1) ((responseWidth : Int) - data.lens[index].2) padTokenId
          ((targets (teachers names[index]) numLogprobs tokens).map (map Prod.fst)),
        padRows ((promptWidth : Int) - data.lens[index].1) ((responseWidth : Int) - data.lens[index].2) 0
          ((targets (teachers names[index]) numLogprobs tokens).map (map Prod.snd))) := by
    intro index inside tokens named
    have here : index < (samples data keys).length := by rwa [samples_length]
    have bound : index < fields.length := by rwa [count]
    have same := related.get here bound
    have found := samples_at data keys inside named
    rw [List.getElem?_eq_getElem here, Option.some_inj] at found
    rw [get_eq_getElem, get_eq_getElem] at same
    rw [found, teacherFields_targets data serves padTokenId inside (resolved index inside) named] at same
    rw [List.getElem?_eq_getElem bound, Option.some_inj]
    exact (Except.ok.inj same).symm
  have shape : ∀ {α : Type} (field : List (List Nat) × List (List K) → List (List α)) (part : Nat × K → α) (value : α),
      (∀ index (_ : index < batch) (tokens : List Nat), data.tokens[index]? = some tokens → (fields.map field)[index]? = some
        (padRows ((promptWidth : Int) - data.lens[index].1) ((responseWidth : Int) - data.lens[index].2) value
          ((targets (teachers names[index]) numLogprobs tokens).map (map part)))) →
      ∃ stacked, stackRows batch (promptWidth + responseWidth) (fields.map field) = .ok stacked ∧
        validRows data.attentionMask stacked = ⟨(batchTargets data teachers numLogprobs names).map (map (map part))⟩ := by
    intro α field part value fieldAt
    apply stackRows_tokens data value (by rw [length_map, count]) (by rw [length_map, batchTargets_length])
    intro index inside
    obtain ⟨tokens, named, length⟩ := data.tokens_at inside
    refine ⟨_, by rw [List.getElem?_map, batchTargets_at data teachers numLogprobs names inside named]; rfl, ?_, fieldAt index inside tokens named⟩
    simpa [targets] using length
  obtain ⟨ids, idsBuilt, idsValid⟩ := shape Prod.fst Prod.fst padTokenId
    (fun index inside tokens named => by rw [List.getElem?_map, fieldsAt index inside tokens named]; rfl)
  obtain ⟨logprobs, logprobsBuilt, logprobsValid⟩ := shape Prod.snd Prod.snd 0
    (fun index inside tokens named => by rw [List.getElem?_map, fieldsAt index inside tokens named]; rfl)
  refine ⟨ids, logprobs, ?_, idsValid, logprobsValid⟩
  rw [withTeacher, computed, ok_bind, idsBuilt, ok_bind, logprobsBuilt]
  rfl

end Batch

/-! ### Losses -/

/-- Of every response column the loss is one of the token, given what is before it; the rest is zero. -/
def Columns {π β : Type} [Zero β] {batch promptWidth responseWidth : Nat} (data : LeftRight Nat π batch promptWidth responseWidth)
    (output : List (List β)) (holds : (index : Fin batch) → List Nat → Nat → β → Prop) : Prop :=
  output.length = batch ∧ ∀ index : Fin batch, ∃ tokens row, data.tokens[index.val]? = some tokens ∧ output[index.val]? = some row ∧
    row.length = responseWidth ∧
    (∀ column < data.lens[index].2, ∃ token value, tokens[data.lens[index].1 + column]? = some token ∧ row[column]? = some value ∧
      holds index (tokens.take (data.lens[index].1 + column)) token value) ∧
    ∀ column, data.lens[index].2 ≤ column → column < responseWidth → row[column]? = some 0

/-- Values that belong to the next token of each place come to the columns of those tokens. -/
theorem columns_of_rows {π β : Type} [Zero β] {batch promptWidth responseWidth : Nat} (present : 0 < batch)
    (data : LeftRight Nat π batch promptWidth responseWidth) {rows : List (List β)} (count : rows.length = batch)
    {holds : (index : Fin batch) → List Nat → Nat → β → Prop}
    (each : ∀ (index : Fin batch) tokens, data.tokens[index.val]? = some tokens → ∃ row, rows[index.val]? = some row ∧
      row.length = tokens.length ∧ ∀ place token, tokens[place + 1]? = some token →
        ∃ value, row[place]? = some value ∧ holds index (tokens.take (place + 1)) token value) :
    ∃ output, noPadding2Padding (.nested ⟨rows⟩)
        (⟨.padded promptWidth responseWidth data.attentionMask, some responseWidth⟩ : ResponseData Nat) = .ok output ∧
      Columns data output holds := by
  have prompts : ∀ len ∈ data.lens.toList, 0 < len.1 := fun len member => (data.prompts len member).1
  have nonempty : data.lens.toList ≠ [] := by
    rw [← length_pos_iff, Vector.length_toList]
    exact present
  have aligned : List.Forall₂ (fun len row => row.length = len.1 + len.2) data.lens.toList rows := by
    rw [forall₂_iff_get]
    refine ⟨by rw [Vector.length_toList, count], ?_⟩
    intro index inside inside'
    have here : index < batch := by rwa [count] at inside'
    obtain ⟨tokens, named, length⟩ := data.tokens_at here
    obtain ⟨row, found, same, _⟩ := each ⟨index, here⟩ tokens named
    rw [List.getElem?_eq_getElem inside', Option.some_inj] at found
    simp [found, same, length]
  refine ⟨_, noPadding2Padding_responses aligned prompts nonempty rfl data.promptLens data.responseLens rfl, ?_, ?_⟩
  · rw [paddedResponses, length_zipWith, responses_length aligned.length_eq, Nat.min_self, Vector.length_toList]
  · intro index
    obtain ⟨tokens, named, length⟩ := data.tokens_at index.isLt
    obtain ⟨row, found, same, values⟩ := each index tokens named
    have lens : data.lens.toList[index.val]? = some data.lens[index] := by simp
    have member := mem_of_getElem? lens
    obtain ⟨padded, inOutput, width, columns⟩ := paddedResponses_at lens found (same.trans length) (prompts _ member)
      (data.responses _ member)
    refine ⟨tokens, padded, named, inOutput, width, ?_, ?_⟩
    · intro column inside
      have prompt := prompts _ member
      have room := data.responses _ member
      have place : data.lens[index].1 + column - 1 + 1 = data.lens[index].1 + column := by omega
      obtain ⟨token, next⟩ : ∃ token, tokens[data.lens[index].1 + column - 1 + 1]? = some token := by
        refine ⟨_, List.getElem?_eq_getElem ?_⟩
        change tokens.length = data.lens[index].1 + data.lens[index].2 at length
        omega
      obtain ⟨value, here, related⟩ := values _ token next
      rw [place] at next related
      refine ⟨token, value, next, ?_, related⟩
      rw [columns column (by omega), if_pos inside, here]
    · intro column outside inside
      rw [columns column inside, if_neg (by omega)]

/-- The student's logits after each token of a sequence. -/
def studentLogits (student : List Nat → List K) (tokens : List Nat) : List (List K) :=
  (List.range tokens.length).map (fun place => student (tokens.take (place + 1)))

/-- The student's logits at every packed place, with the teacher's log probabilities and ids there. -/
def beside (student : List Nat → List K) (tokens : List (List Nat)) (logprobs : List (List (List K))) (ids : List (List (List Nat))) :
    List (List (List K × List K × List Nat)) :=
  List.zipWith List.zip (tokens.map (studentLogits student)) (List.zipWith List.zip logprobs ids)

section Beside
variable [Zero K] {batch promptWidth responseWidth : Nat} (data : LeftRight Nat K batch promptWidth responseWidth)
  (teachers : String → Teacher K) (numLogprobs : Nat) (names : Vector String batch) (student : List Nat → List K)

def batchBeside : List (List (List K × List K × List Nat)) :=
  beside student data.tokens ((batchTargets data teachers numLogprobs names).map (List.map (List.map Prod.snd)))
    ((batchTargets data teachers numLogprobs names).map (List.map (List.map Prod.fst)))

theorem batchBeside_at (index : Fin batch) {tokens : List Nat} (named : data.tokens[index.val]? = some tokens) :
    (batchBeside data teachers numLogprobs names student)[index.val]? = some ((studentLogits student tokens).zip
      (((targets (teachers names[index]) numLogprobs tokens).map (map Prod.snd)).zip
        ((targets (teachers names[index]) numLogprobs tokens).map (map Prod.fst)))) := by
  simp only [batchBeside, beside, List.getElem?_zipWith, List.getElem?_map, named, batchTargets_at data teachers numLogprobs names index.isLt named,
    Option.map_some]
  rfl

theorem batchBeside_length : (batchBeside data teachers numLogprobs names student).length = batch := by
  simp [batchBeside, beside, batchTargets_length, data.tokens_length]

theorem batchBeside_next (index : Fin batch) {tokens : List Nat} {row : List (List K × List K × List Nat)}
    (named : data.tokens[index.val]? = some tokens)
    (found : (batchBeside data teachers numLogprobs names student)[index.val]? = some row) :
    row.length = tokens.length ∧ ∀ place token, tokens[place + 1]? = some token →
      let target := (teachers names[index]).target numLogprobs (tokens.take (place + 1)) token
      row[place]? = some (student (tokens.take (place + 1)), target.map Prod.snd, target.map Prod.fst) := by
  rw [batchBeside_at data teachers numLogprobs names student index named, Option.some_inj] at found
  subst found
  refine ⟨by simp [studentLogits, targets], ?_⟩
  intro place token next
  have inside := (List.getElem?_eq_some_iff.mp next).1
  have range : (range tokens.length)[place]? = some place := List.getElem?_range (by omega)
  simp only [zip_eq_zipWith, List.getElem?_zipWith, studentLogits, targets, List.getElem?_map, range, Option.map_some, next]

/-- A loss of what is beside each other comes to the columns of the tokens that are predicted. -/
theorem beside_columns {β : Type} [Zero β] (present : 0 < batch) (loss : List K × List K × List Nat → β)
    (describes : List K × List K × List Nat → β → Prop)
    (described : ∀ place ∈ (batchBeside data teachers numLogprobs names student).flatten, describes place (loss place)) :
    ∃ output, noPadding2Padding (.nested ⟨(batchBeside data teachers numLogprobs names student).map (map loss)⟩)
        (⟨.padded promptWidth responseWidth data.attentionMask, some responseWidth⟩ : ResponseData Nat) = .ok output ∧
      Columns data output (fun index before token value =>
        let target := (teachers names[index]).target numLogprobs before token
        describes (student before, target.map Prod.snd, target.map Prod.fst) value) := by
  apply columns_of_rows present data (by rw [length_map, batchBeside_length])
  intro index tokens named
  have found := batchBeside_at data teachers numLogprobs names student index named
  obtain ⟨length, values⟩ := batchBeside_next data teachers numLogprobs names student index named found
  refine ⟨_, by rw [List.getElem?_map, found]; rfl, by rw [length_map, length], ?_⟩
  intro place token next
  have here := values place token next
  refine ⟨_, by rw [List.getElem?_map, here]; rfl, ?_⟩
  exact described _ (mem_flatten.mpr ⟨_, mem_of_getElem? found, mem_of_getElem? here⟩)

end Beside

/-! ### The forward KL divergence -/

theorem flatten_zip {α β : Type} {rows : List (List α)} {others : List (List β)}
    (aligned : List.Forall₂ (fun row other => row.length = other.length) rows others) :
    (zipWith zip rows others).flatten = rows.flatten.zip others.flatten := by
  induction aligned with
  | nil => rfl
  | cons same _ ih =>
    simp only [zipWith_cons_cons, flatten_cons, ih]
    exact (zip_append same).symm

section ForwardKl
variable [Field K] [LinearOrder K] (exp log : K → K) (clamp : Option K)

/-- What the loss computes for logits, log probabilities and ids at one place. -/
def placeOutputs (place : List K × List K × List Nat) : Option (ForwardKl.Outputs K) :=
  ForwardKl.Fsdp.computeForwardKlTopk exp log place.1 place.2.1 place.2.2 clamp

def Known (place : List K × List K × List Nat) : Prop := place.2.2.length ≤ place.1.length ∧ ∀ id ∈ place.2.2, id < place.1.length

variable {place : List K × List K × List Nat}

theorem placeOutputs_known (known : Known place) : ∃ outputs, placeOutputs exp log clamp place = some outputs := by
  have width : (ForwardKl.Fsdp.logSoftmax exp log place.1).length = place.1.length := by
    rw [ForwardKl.Fsdp.logSoftmax, length_map]
  have best : ForwardKl.topk (ForwardKl.Fsdp.logSoftmax exp log place.1) place.2.2.length =
      some (TopK.largest Prod.fst place.2.2.length (ForwardKl.Fsdp.logSoftmax exp log place.1).zipIdx) :=
    if_pos (width ▸ known.1)
  have gathered : place.2.2.mapM (fun id => (ForwardKl.Fsdp.logSoftmax exp log place.1)[id]?) =
      some (place.2.2.map (fun id => (ForwardKl.Fsdp.logSoftmax exp log place.1).getD id 0)) := by
    apply mapM_some
    intro id member
    have inside : id < (ForwardKl.Fsdp.logSoftmax exp log place.1).length := width ▸ known.2 id member
    rw [getD_eq_getElem?_getD, List.getElem?_eq_getElem inside, Option.getD_some]
  simp only [placeOutputs, ForwardKl.Fsdp.computeForwardKlTopk, best, gathered]
  exact ⟨_, rfl⟩

def outputsOf (place : List K × List K × List Nat) : ForwardKl.Outputs K :=
  (placeOutputs exp log clamp place).getD ⟨0, 0, 0, 0, 0⟩

theorem placeOutputs_eq (known : Known place) :
    placeOutputs exp log clamp place = some (outputsOf exp log clamp place) := by
  obtain ⟨outputs, computed⟩ := placeOutputs_known exp log clamp known
  rw [outputsOf, computed, Option.getD_some]

/-- The part of a rank of the padded logits goes with its part of the padded teacher fields. -/
theorem computeForwardKlTopk_shard {spSize : Nat} (rank : Nat) (several : 1 < spSize) {logits padLogits : List (List K)}
    {logprobs : Nested (List K)} {ids : Nested (List Nat)} (sameLogprobs : logprobs.values.length = logits.length)
    (sameIds : ids.values.length = logits.length) (padded : padLogits.length = Shards.missing spSize logits.length) :
    let pads := padLogits.zip ((replicate padLogits.length (replicate (logprobs.values.headD []).length 0)).zip
      (replicate padLogits.length (replicate (ids.values.headD []).length 0)))
    let places := logits.zip (logprobs.values.zip ids.values) ++ pads
    (∀ place ∈ places, Known place) → computeForwardKlTopk exp log spSize rank (Shards.shard spSize rank (logits ++ padLogits))
      logprobs ids clamp = some (Shards.shard spSize rank (places.map (outputsOf exp log clamp))) := by
  intro pads places known
  have sliced : ∀ {α : Type} (blank : α) (rows : List α), rows.length = logits.length →
      sliceInputTensor spSize rank blank rows = Shards.shard spSize rank (rows ++ replicate padLogits.length blank) := by
    intro α blank rows same
    rw [sliceInputTensor, padded, ← same]
    split
    · rename_i uneven
      rw [Shards.missing_of_mod uneven]
    · rename_i even
      rw [Shards.missing_of_dvd (not_not.mp even), replicate_zero, append_nil]
  have whole : (logits ++ padLogits).zip
      ((logprobs.values ++ replicate padLogits.length (replicate (logprobs.values.headD []).length 0)).zip
        (ids.values ++ replicate padLogits.length (replicate (ids.values.headD []).length 0))) = places := by
    rw [zip_append (sameLogprobs.trans sameIds.symm), zip_append (by simp [sameLogprobs, sameIds])]
  have parts : ∀ {α : Type} (rows : List α), rows.length = logits.length + padLogits.length →
      (Shards.shard spSize rank rows).length = (Shards.shard spSize rank (logits ++ padLogits)).length := by
    intro α rows same
    rw [Shards.shard, Shards.shard, slice_length, slice_length, same, length_append]
  rw [computeForwardKlTopk, if_pos several, if_pos several, sliced _ _ sameLogprobs, sliced _ _ sameIds]
  rw [if_pos ⟨(parts _ (by simp [sameLogprobs])).trans (parts _ (by simp [sameIds])).symm, parts _ (by simp [sameIds])⟩,
    ← Shards.shard_zip (by simp [sameLogprobs, sameIds]), ← Shards.shard_zip (by simp [sameLogprobs, sameIds]), whole,
    Shards.shard_map]
  apply mapM_some
  intro place member
  exact placeOutputs_eq exp log clamp (known place (Shards.mem_of_mem_shard member))

/-- The outputs of all ranks, without those of the padding, are those of every packed place. -/
theorem topkOutputs_places {spSize : Nat} (present : 0 < spSize) {logits padLogits : List (List K)} {logprobs : Nested (List K)}
    {ids : Nested (List Nat)} {rows : List (List (List K × List K × List Nat))}
    (sameLogprobs : logprobs.values.length = logits.length) (sameIds : ids.values.length = logits.length)
    (padded : padLogits.length = Shards.missing spSize logits.length)
    (places : rows.flatten = logits.zip (logprobs.values.zip ids.values)) (known : ∀ place ∈ rows.flatten, Known place)
    (knownPads : ∀ logits ∈ padLogits, (ids.values.headD []).length ≤ logits.length ∧ 0 < logits.length) :
    topkOutputs spSize (fun rank => computeForwardKlTopk exp log spSize rank (Shards.shard spSize rank (logits ++ padLogits))
        logprobs ids clamp) padLogits.length (Nested.offsets ⟨rows⟩) =
      some ⟨rows.map (map (outputsOf exp log clamp))⟩ := by
  have offsets : Nested.offsets ⟨rows.map (map (outputsOf exp log clamp))⟩ = Nested.offsets ⟨rows⟩ := by
    simp only [Nested.offsets, Nested.lengths, map_map, Function.comp_def, length_map]
  have back := Nested.fromJagged_values ⟨rows.map (map (outputsOf exp log clamp))⟩
  rw [offsets, Nested.values, ← map_flatten] at back
  have total : rows.flatten.length = logits.length := by simp [places, sameLogprobs, sameIds]
  by_cases several : 1 < spSize
  · have each := fun rank => computeForwardKlTopk_shard exp log clamp rank several sameLogprobs sameIds padded (by
      intro place member
      rw [mem_append, ← places] at member
      cases member with
      | inl real => exact known place real
      | inr pad =>
        obtain ⟨padLogit, fields⟩ := of_mem_zip pad
        obtain ⟨_, zeros⟩ := of_mem_zip fields
        obtain ⟨wide, filled⟩ := knownPads _ padLogit
        rw [Known, eq_of_mem_replicate zeros]
        refine ⟨by rwa [length_replicate], ?_⟩
        intro id member
        rwa [eq_of_mem_replicate member])
    have all := @mapM_some _ _ _ _ (range spSize) (fun rank _ => each rank)
    rw [topkOutputs, if_pos several, all, ← places, map_append]
    have length : (rows.flatten.map (outputsOf exp log clamp)).length = logits.length := by rw [length_map, total]
    generalize rows.flatten.map (outputsOf exp log clamp) = computed at back length ⊢
    have padLength : ((padLogits.zip ((replicate padLogits.length (replicate (logprobs.values.headD []).length (0 : K))).zip
        (replicate padLogits.length (replicate (ids.values.headD []).length 0)))).map (outputsOf exp log clamp)).length =
          padLogits.length := by simp
    generalize map (outputsOf exp log clamp) (padLogits.zip _) = pads at padLength ⊢
    have even : spSize ∣ (computed ++ pads).length := by
      rw [length_append, length, padLength, padded]
      exact Shards.dvd_missing spSize logits.length present
    have gathered : gatherOutputsAndUnpad ((range spSize).map (fun rank => Shards.shard spSize rank (computed ++ pads)))
        padLogits.length = computed := by
      rw [gatherOutputsAndUnpad, ← flatMap_def, Shards.shards_whole even]
      split
      · rename_i empty
        rw [eq_nil_of_length_eq_zero (padLength.trans empty), append_nil]
      · rw [length_append, padLength, Nat.add_sub_cancel, take_left]
    simp only [Option.bind_eq_bind, Option.bind_some, gathered]
    exact congrArg Option.some back
  · have one : spSize = 1 := by omega
    subst one
    have noPads : padLogits = [] := eq_nil_of_length_eq_zero (by rw [padded, Shards.missing, Nat.mod_one])
    have whole : Shards.shard 1 0 (logits ++ padLogits) = logits := by
      rw [noPads, append_nil, Shards.shard, Nat.zero_mul, Nat.zero_add, Nat.one_mul, Nat.div_one,
        slice_full _ _ (Nat.le_refl _)]
    rw [topkOutputs, if_neg several, whole, computeForwardKlTopk, if_neg several, if_neg several,
      if_pos ⟨sameLogprobs.trans sameIds.symm, sameIds⟩, ← places]
    have all : rows.flatten.mapM (placeOutputs exp log clamp) = some (rows.flatten.map (outputsOf exp log clamp)) :=
      mapM_some _ (fun place member => placeOutputs_eq exp log clamp (known place member))
    change (do return Nested.fromJagged (← rows.flatten.mapM (placeOutputs exp log clamp)) (Nested.offsets ⟨rows⟩)) = _
    rw [all]
    exact congrArg Option.some back

/-- Student and teachers have one vocabulary with room for all ids that are asked for. -/
structure Vocabulary (student : List Nat → List K) (teachers : String → Teacher K) (numLogprobs size : Nat) : Prop where
  topk : numLogprobs ≠ 0
  few : numLogprobs ≤ size
  logits : ∀ before, (student before).length = size
  ids : ∀ key before, ∀ entry ∈ (teachers key).ranked before, entry.1 < size

variable {batch promptWidth responseWidth : Nat} {student : List Nat → List K} {teachers : String → Teacher K}
  {numLogprobs size : Nat} {manager : AsyncTeacherLLMServerManager K}

omit [LinearOrder K] in
theorem targets_known (vocabulary : Vocabulary student teachers numLogprobs size) {promptLogprobs : List Nat → PromptLogprobs K}
    {key : String} (answers : Answers (teachers key) numLogprobs promptLogprobs) {tokens : List Nat} {row : List (Nat × K)}
    (member : row ∈ targets (teachers key) numLogprobs tokens) : row.length = numLogprobs ∧ ∀ entry ∈ row, entry.1 < size := by
  have topk := vocabulary.topk
  have few := vocabulary.few
  have width := targets_width answers member
  refine ⟨by omega, ?_⟩
  obtain ⟨place, _, rfl⟩ := mem_map.mp member
  split
  · intro entry among
    rw [Teacher.target, if_neg topk] at among
    exact vocabulary.ids key _ entry (mem_of_mem_take among)
  · intro entry among
    rw [eq_of_mem_replicate among]
    change 0 < size
    omega

section Assembled
variable (data : LeftRight Nat K batch promptWidth responseWidth) {keys : Vector (Option String) batch} {names : Vector String batch}

omit [LinearOrder K] in
theorem batchTargets_known (serves : Serves manager teachers numLogprobs) (vocabulary : Vocabulary student teachers numLogprobs size)
    (resolved : ∀ index (_ : index < batch), manager.resolveTeacherKey keys[index] = .ok names[index])
    {row : List (Nat × K)} (member : row ∈ (batchTargets data teachers numLogprobs names).flatten) :
    row.length = numLogprobs ∧ ∀ entry ∈ row, entry.1 < size := by
  obtain ⟨rows, among, inRow⟩ := mem_flatten.mp member
  obtain ⟨index, inside, rfl⟩ := mem_iff_getElem.mp among
  have here : index < batch := by rwa [batchTargets_length] at inside
  obtain ⟨tokens, named, _⟩ := data.tokens_at here
  have found := batchTargets_at data teachers numLogprobs names here named
  rw [List.getElem?_eq_getElem inside, Option.some_inj] at found
  rw [found] at inRow
  obtain ⟨model, served⟩ := lookup_resolved (resolved index here)
  exact targets_known vocabulary (serves.answers _ model served) inRow

omit [LinearOrder K] in
theorem batchTargets_aligned (teachers : String → Teacher K) (numLogprobs : Nat) (names : Vector String batch)
    (student : List Nat → List K) :
    List.Forall₂ (fun logits targets => logits.length = targets.length) (data.tokens.map (studentLogits student))
      (batchTargets data teachers numLogprobs names) := by
  rw [forall₂_iff_get]
  refine ⟨by rw [length_map, data.tokens_length, batchTargets_length], ?_⟩
  intro index inside inside'
  have here : index < batch := by rwa [batchTargets_length] at inside'
  obtain ⟨tokens, named, _⟩ := data.tokens_at here
  have found := batchTargets_at data teachers numLogprobs names here named
  have bound : index < data.tokens.length := by rwa [data.tokens_length]
  rw [List.getElem?_eq_getElem inside', Option.some_inj] at found
  rw [List.getElem?_eq_getElem bound, Option.some_inj] at named
  rw [get_eq_getElem, get_eq_getElem, found, getElem_map, named]
  simp [studentLogits, targets]

omit [LinearOrder K] in
theorem batchBeside_flatten (teachers : String → Teacher K) (numLogprobs : Nat) (names : Vector String batch)
    (student : List Nat → List K) : (batchBeside data teachers numLogprobs names student).flatten =
    (data.tokens.map (studentLogits student)).flatten.zip
      (((batchTargets data teachers numLogprobs names).flatten.map (map Prod.snd)).zip
        ((batchTargets data teachers numLogprobs names).flatten.map (map Prod.fst))) := by
  have aligned := batchTargets_aligned data teachers numLogprobs names student
  have fields : List.Forall₂ (fun (row : List (List K)) (other : List (List Nat)) => row.length = other.length)
      ((batchTargets data teachers numLogprobs names).map (map (map Prod.snd)))
      ((batchTargets data teachers numLogprobs names).map (map (map Prod.fst))) := by
    rw [forall₂_map_left_iff, forall₂_map_right_iff, forall₂_same]
    intro row _
    rw [length_map, length_map]
  rw [batchBeside, beside, flatten_zip, flatten_zip fields, ← map_flatten, ← map_flatten]
  rw [zipWith_map, zipWith_self, forall₂_map_right_iff]
  apply aligned.imp
  intro logits targets same
  simp [same]

section
variable (serves : Serves manager teachers numLogprobs)
  (vocabulary : Vocabulary student teachers numLogprobs size)
  (resolved : ∀ index (_ : index < batch), manager.resolveTeacherKey keys[index] = .ok names[index])
include serves vocabulary resolved

omit [LinearOrder K] in
theorem batchBeside_known (member : place ∈ (batchBeside data teachers numLogprobs names student).flatten) :
    Known place := by
  rw [batchBeside_flatten data teachers numLogprobs names student] at member
  obtain ⟨logit, fields⟩ := of_mem_zip member
  obtain ⟨_, ids⟩ := of_mem_zip fields
  obtain ⟨row, among, same⟩ := mem_map.mp ids
  obtain ⟨width, inside⟩ := batchTargets_known data serves vocabulary resolved among
  obtain ⟨rows, inRows, inRow⟩ := mem_flatten.mp logit
  obtain ⟨tokens, _, rfl⟩ := mem_map.mp inRows
  obtain ⟨prefixLength, _, logits⟩ := mem_map.mp inRow
  have known := vocabulary.logits (tokens.take (prefixLength + 1))
  rw [logits] at known
  refine ⟨by rw [← same, length_map, width, known]; exact vocabulary.few, ?_⟩
  intro id idMember
  rw [← same] at idMember
  obtain ⟨entry, inTarget, rfl⟩ := mem_map.mp idMember
  rw [known]
  exact inside entry inTarget

/-- The loss over the top tokens is computed at every packed place, on any number of ranks. -/
theorem topkOutputs_beside {spSize : Nat}
    (ranks : 0 < spSize) {padLogits : List (List K)} (padded : padLogits.length = Shards.missing spSize data.tokens.flatten.length)
    (wide : ∀ logits ∈ padLogits, logits.length = size) :
    topkOutputs spSize (fun rank => computeForwardKlTopk exp log spSize rank
        (Shards.shard spSize rank ((data.tokens.map (studentLogits student)).flatten ++ padLogits))
        ⟨(batchTargets data teachers numLogprobs names).map (map (map Prod.snd))⟩
        ⟨(batchTargets data teachers numLogprobs names).map (map (map Prod.fst))⟩ clamp)
        padLogits.length (Nested.offsets ⟨data.tokens⟩) =
      some ⟨(batchBeside data teachers numLogprobs names student).map (map (outputsOf exp log clamp))⟩ := by
  have topk := vocabulary.topk
  have few := vocabulary.few
  have aligned := batchTargets_aligned data teachers numLogprobs names student
  have total : (batchTargets data teachers numLogprobs names).flatten.length =
      (data.tokens.map (studentLogits student)).flatten.length := by
    rw [length_flatten, length_flatten]
    congr 1
    exact (forall₂_eq_eq_eq ▸ (forall₂_map_left_iff.mpr (forall₂_map_right_iff.mpr aligned))).symm
  have places : (data.tokens.map (studentLogits student)).flatten.length = data.tokens.flatten.length := by
    rw [length_flatten, length_flatten, map_map]
    congr 1
    apply map_congr_left
    intro tokens _
    simp [studentLogits]
  have offsets : Nested.offsets ⟨data.tokens⟩ = Nested.offsets ⟨batchBeside data teachers numLogprobs names student⟩ := by
    rw [Nested.offsets, Nested.offsets, Nested.lengths, Nested.lengths]
    congr 1
    apply ext_getElem (by rw [length_map, length_map, data.tokens_length, batchBeside_length])
    intro index inside inside'
    have here : index < batch := by rwa [length_map, data.tokens_length] at inside
    obtain ⟨tokens, named, _⟩ := data.tokens_at here
    have found := batchBeside_at data teachers numLogprobs names student ⟨index, here⟩ named
    obtain ⟨length, _⟩ := batchBeside_next data teachers numLogprobs names student ⟨index, here⟩ named found
    rw [length_map] at inside inside'
    rw [List.getElem?_eq_getElem inside', Option.some_inj] at found
    rw [List.getElem?_eq_getElem inside, Option.some_inj] at named
    rw [getElem_map, getElem_map, named, found, length]
  have flatten := batchBeside_flatten data teachers numLogprobs names student
  rw [offsets]
  apply topkOutputs_places exp log clamp ranks
  · rw [Nested.values, ← map_flatten, length_map, total]
  · rw [Nested.values, ← map_flatten, length_map, total]
  · rw [places, padded]
  · rw [flatten, Nested.values, Nested.values, ← map_flatten, ← map_flatten]
  · intro place member
    exact batchBeside_known data serves vocabulary resolved member
  · intro logits member
    rw [wide logits member]
    refine ⟨?_, by omega⟩
    rw [Nested.values, ← map_flatten]
    cases targetRows : (batchTargets data teachers numLogprobs names).flatten with
    | nil => exact Nat.zero_le _
    | cons first rest =>
      have among : first ∈ (batchTargets data teachers numLogprobs names).flatten := by simp [targetRows]
      have known := batchTargets_known data serves vocabulary resolved among
      rw [map_cons, headD_cons, length_map, known.1]
      exact few

end

/-- The teacher's distribution for a token lies beside the student's logits for it, and the loss of
them comes to the column of that token. -/
theorem teacher_beside_student (serves : Serves manager teachers numLogprobs) (present : 0 < batch) (padTokenId : Nat)
    (resolved : ∀ index (_ : index < batch), manager.resolveTeacherKey keys[index] = .ok names[index]) :
    ∃ scored packed ids logprobs, withTeacher manager padTokenId (samples data keys) data.tensorDict = .ok scored ∧
      leftRight2NoPadding scored = .ok packed ∧ packed.inputIds = ⟨data.tokens⟩ ∧
      packed.teacherIds = some (.nested ids) ∧ packed.teacherLogprobs = some (.nested logprobs) ∧
      (∀ index : Fin batch, ∃ tokens, data.tokens[index.val]? = some tokens ∧
        ids.rows[index.val]? = some ((targets (teachers names[index]) numLogprobs tokens).map (List.map Prod.fst)) ∧
        logprobs.rows[index.val]? = some ((targets (teachers names[index]) numLogprobs tokens).map (List.map Prod.snd))) ∧
      (∀ (student : List Nat → List K) {β : Type} [Zero β] (loss : List K × List K × List Nat → β),
        ∃ output, noPadding2Padding (.nested ⟨(beside student data.tokens logprobs.rows ids.rows).map (List.map loss)⟩)
            packed.responseData = .ok output ∧
          Columns data output (fun index before token value =>
            let target := (teachers names[index]).target numLogprobs before token
            value = loss (student before, target.map Prod.snd, target.map Prod.fst))) ∧
      ∀ (student : List Nat → List K) (size : Nat), Vocabulary student teachers numLogprobs size →
        ∀ (spSize : Nat) (padLogits : List (List K)), 0 < spSize →
          padLogits.length = Shards.missing spSize data.tokens.flatten.length →
          (∀ logits ∈ padLogits, logits.length = size) →
          ∃ outputs, topkOutputs spSize (fun rank => computeForwardKlTopk exp log spSize rank
              (Shards.shard spSize rank ((data.tokens.map (studentLogits student)).flatten ++ padLogits)) logprobs ids clamp)
              padLogits.length packed.inputIds.offsets = some outputs ∧
            ∀ {β : Type} [Zero β] (field : ForwardKl.Outputs K → β),
              ∃ output, noPadding2Padding (.nested ⟨outputs.rows.map (List.map field)⟩) packed.responseData = .ok output ∧
                Columns data output (fun index before token value =>
                  let target := (teachers names[index]).target numLogprobs before token
                  ∃ result, ForwardKl.Fsdp.computeForwardKlTopk exp log (student before) (target.map Prod.snd) (target.map Prod.fst)
                    clamp = some result ∧ value = field result) := by
  obtain ⟨ids, logprobs, scored, idsValid, logprobsValid⟩ := withTeacher_targets data serves padTokenId resolved
  let full : LeftRight Nat K batch promptWidth responseWidth :=
    { data with teacherIds := some ids, teacherLogprobs := some logprobs }
  obtain ⟨packed, succeeds, inputIds, responseData, teacher⟩ := full.packed present
  rw [Prod.ext_iff] at teacher
  change packed.teacherLogprobs = some (.nested (validRows data.attentionMask logprobs)) ∧
    packed.teacherIds = some (.nested (validRows data.attentionMask ids)) at teacher
  change packed.inputIds = validRows data.attentionMask data.inputIds at inputIds
  change packed.responseData = ⟨.padded promptWidth responseWidth data.attentionMask, some responseWidth⟩ at responseData
  rw [data.validRows_tokens] at inputIds
  rw [idsValid, logprobsValid] at teacher
  refine ⟨_, packed, _, _, scored, succeeds, inputIds, teacher.2, teacher.1, ?_, ?_, ?_⟩
  · intro index
    obtain ⟨tokens, named, _⟩ := data.tokens_at index.isLt
    have found := batchTargets_at data teachers numLogprobs names index.isLt named
    refine ⟨tokens, named, ?_, ?_⟩
    · rw [List.getElem?_map, found]
      rfl
    · rw [List.getElem?_map, found]
      rfl
  · intro student β _ loss
    rw [responseData]
    exact beside_columns data teachers numLogprobs names student present loss (fun place value => value = loss place)
      (fun _ _ => rfl)
  · intro student size vocabulary spSize padLogits ranks padded wide
    rw [responseData, inputIds]
    refine ⟨_, topkOutputs_beside exp log clamp data serves vocabulary resolved ranks padded wide, ?_⟩
    intro β _ field
    have columns := beside_columns data teachers numLogprobs names student present (field ∘ outputsOf exp log clamp)
      (fun place value => ∃ result, placeOutputs exp log clamp place = some result ∧ value = field result)
      (fun place member => ⟨_, placeOutputs_eq exp log clamp (batchBeside_known data serves vocabulary resolved member), rfl⟩)
    obtain ⟨output, computed, columns⟩ := columns
    refine ⟨output, ?_, columns⟩
    rw [← computed, List.map_map]
    simp only [Function.comp_def, List.map_map]

end Assembled

end ForwardKl

/-! ### A batch of two samples -/

/-- A prompt of one token with a response of two, and a prompt of two without a response. -/
def twoSamples : LeftRight Nat Rat 2 2 2 where
  inputIds := twoRows.inputIds
  attentionMask := twoRows.attentionMask
  responseMask := twoRows.responseMask
  positionIds := twoRows.positionIds
  routedExperts := none
  teacherLogprobs := none
  teacherIds := none
  lens := twoRows.lens
  masks := twoRows.masks
  prompts := twoRows.prompts
  responses := twoRows.responses
  routed := fun _ found => (Option.some_ne_none _ found.symm).elim

def sureTeacher : Teacher Rat := ⟨fun _ _ => 0, fun _ => [(8, 0)]⟩

/-- The engine of that teacher, for the best token. -/
def sureEngine (tokens : List Nat) : PromptLogprobs Rat :=
  none :: (List.replicate (tokens.length - 1) [(8, ⟨0, 1⟩)]).map some

def sureManager : AsyncTeacherLLMServerManager Rat := ⟨[("teacher", ⟨1, fun tokens _ => sureEngine tokens⟩)], true, some 1⟩

theorem sureEngine_answers : Answers sureTeacher 1 sureEngine := by
  intro tokens nonempty
  have some := length_pos_iff.mpr nonempty
  refine ⟨replicate (tokens.length - 1) [(8, ⟨0, 1⟩)], rfl, by rw [length_replicate]; omega, ?_⟩
  intro place entries token found _
  obtain ⟨_, rfl⟩ := List.getElem?_eq_some_iff.mp found
  rw [getElem_replicate]
  constructor
  · exact nofun
  · exact fun _ => .inl rfl
  · intro _ entry member
    cases mem_singleton.mp member
    exact ⟨Nat.one_pos, fun _ => rfl⟩
  · intro _ rank inside
    exact ⟨_, mem_singleton.mpr rfl, by change 1 = rank + 1; omega⟩

theorem sureManager_serves : Serves sureManager (fun _ => sureTeacher) 1 := by
  constructor
  · rfl
  · intro entry member
    cases mem_singleton.mp member
    rfl
  · intro key model found
    have member := mem_of_lookup found
    cases mem_singleton.mp member
    exact sureEngine_answers

theorem teacher_beside_student_two : ∃ scored packed ids logprobs,
    withTeacher sureManager 9 (samples twoSamples #v[none, none]) twoSamples.tensorDict = .ok scored ∧
      leftRight2NoPadding scored = .ok packed ∧ packed.teacherIds = some (.nested ids) ∧
      packed.teacherLogprobs = some (.nested logprobs) ∧ ids.rows[0]? = some [[8], [8], [0]] := by
  have resolved : ∀ index (_ : index < 2), sureManager.resolveTeacherKey (#v[none, none] : Vector (Option String) 2)[index] =
      .ok (#v["teacher", "teacher"] : Vector String 2)[index] := by
    intro index inside
    have first : index = 0 ∨ index = 1 := by omega
    cases first with
    | inl first =>
      subst first
      rfl
    | inr second =>
      subst second
      rfl
  obtain ⟨scored, packed, ids, logprobs, built, succeeds, _, idsOf, logprobsOf, rows, _⟩ :=
    teacher_beside_student id id none twoSamples sureManager_serves Nat.two_pos 9 resolved
  refine ⟨scored, packed, ids, logprobs, built, succeeds, idsOf, logprobsOf, ?_⟩
  obtain ⟨tokens, named, row, _⟩ := rows ⟨0, Nat.two_pos⟩
  have first : tokens = [3, 4, 5] := Option.some.inj (named.symm.trans (by decide))
  rw [row, first]
  rfl

end LLMFusion.TeacherLoop
