import LLMFusion.CoreAlgos
import LLMFusion.Lib.Fallible

/-! Advantages against the other responses of a group. The dictionaries and the tensors of the
vectorised versions hold the same statistics of what a label has. -/

namespace LLMFusion.CoreAlgos
open List hiding mapM_map Vector
open TorchFunctional Grouping Groupwise Indexing Fallible

/-! ### Dictionaries -/

section Dictionaries
variable {ι K : Type}

/-- A statistic of the scores of a group, or the value for a single one. -/
def ofGroup {α : Type} (single : α) (statistic : List K → α) (scores : List K) : α :=
  if scores.length = 1 then single else statistic scores

theorem groupStatistic_ok [DecidableEq ι] {α : Type} (single : α) (statistic : List K → α) (entries : List (ι × K)) :
    groupStatistic single statistic (collect entries) =
      .ok ((collect entries).map (fun group => (group.1, ofGroup single statistic group.2))) := by
  apply mapM_map
  intro group member
  have filled := collect_nonempty entries group member
  obtain ⟨label, scores⟩ := group
  match scores with
  | [] => exact absurd rfl filled
  | [_] => rfl
  | _ :: _ :: _ => simp [ofGroup]

theorem getKey_statistic [DecidableEq ι] {α : Type} (f : List K → α) {entries : List (ι × K)} {entry : ι × K}
    (member : entry ∈ entries) :
    getKey ((collect entries).map (fun group => (group.1, f group.2))) entry.1 = .ok (f (members entries entry.1)) := by
  rw [getKey, lookup_values, collect_lookup_of_mem (mem_map_of_mem member)]
  rfl

theorem getKey_group [DecidableEq ι] {entries : List (ι × K)} {entry : ι × K} (member : entry ∈ entries) :
    getKey (collect entries) entry.1 = .ok (members entries entry.1) := by
  rw [getKey, collect_lookup_of_mem (mem_map_of_mem member)]

variable [Field K] {width : Nat}

/-- The advantage of a score in its group. -/
def normalized (sqrt : K → K) (epsilon : K) (normAdvByStdInGrpo : Bool) (group : List K) (score : K) : K :=
  if normAdvByStdInGrpo then (score - ofGroup 0 mean group) / (ofGroup 1 (std sqrt) group + epsilon)
  else score - ofGroup 0 mean group

theorem computeGrpo_eq [DecidableEq ι] (sqrt : K → K) (batch : List (Vector (Token K) width)) (index : List ι)
    (epsilon : K) (normAdvByStdInGrpo : Bool) :
    let entries := index.zip (scoresOf batch)
    let advantages := unsqueezeMask (entries.map (fun entry =>
      normalized sqrt epsilon normAdvByStdInGrpo (members entries entry.1) entry.2)) batch
    computeGrpoOutcomeAdvantage sqrt batch index epsilon normAdvByStdInGrpo = .ok (advantages, advantages) := by
  intro entries advantages
  have each : ∀ entry ∈ entries, (do
      let mean ← getKey ((collect entries).map (fun group => (group.1, ofGroup 0 mean group.2))) entry.1
      if normAdvByStdInGrpo then
        let std ← getKey ((collect entries).map (fun group => (group.1, ofGroup 1 (std sqrt) group.2))) entry.1
        return (entry.2 - mean) / (std + epsilon)
      else return entry.2 - mean) =
      (.ok (normalized sqrt epsilon normAdvByStdInGrpo (members entries entry.1) entry.2) : Except Failure K) := by
    intro entry member
    rw [getKey_statistic (ofGroup 0 mean) member, getKey_statistic (ofGroup 1 (std sqrt)) member]
    cases normAdvByStdInGrpo <;> rfl
  rw [computeGrpoOutcomeAdvantage, groupStatistic_ok, groupStatistic_ok, ok_bind, ok_bind,
    mapM_map _ each]
  rfl

def leaveOneOut (group : List K) (score : K) : K :=
  if group.length > 1 then
    score * group.length / (group.length - 1) - mean group * group.length / (group.length - 1)
  else score

theorem computeRloo_eq [DecidableEq ι] (batch : List (Vector (Token K) width)) (index : List ι) :
    let entries := index.zip (scoresOf batch)
    let advantages := unsqueezeMask (entries.map (fun entry => leaveOneOut (members entries entry.1) entry.2)) batch
    computeRlooOutcomeAdvantage batch index = .ok (advantages, advantages) := by
  intro entries advantages
  have each : ∀ entry ∈ entries, (do
      let group ← getKey (collect entries) entry.1
      let responseNum := group.length
      if responseNum > 1 then
        let mean ← getKey ((collect entries).map (fun group => (group.1, ofGroup 0 mean group.2))) entry.1
        return entry.2 * responseNum / (responseNum - 1) - mean * responseNum / (responseNum - 1)
      else return entry.2) = (.ok (leaveOneOut (members entries entry.1) entry.2) : Except Failure K) := by
    intro entry member
    rw [getKey_group member, getKey_statistic (ofGroup 0 mean) member, ok_bind, leaveOneOut]
    by_cases several : (members entries entry.1).length > 1
    · have multiple : (members entries entry.1).length ≠ 1 := by omega
      simp only [several, if_true, ofGroup, multiple, if_false, ok_bind]
      rfl
    · simp only [several, if_false]
      rfl
  rw [computeRlooOutcomeAdvantage, groupStatistic_ok, ok_bind, mapM_map _ each]
  rfl

end Dictionaries

/-! ### Tensors -/

section Tensors
variable {ι K : Type} [Field K]

theorem uniqueInverse_spec [LinearOrder ι] (labels : List ι) :
    ∃ rename : ι → Nat, uniqueInverse labels = labels.map rename ∧
      ∀ label ∈ labels, ∀ other ∈ labels, rename label = rename other → label = other := by
  refine ⟨fun label => (labels.dedup.mergeSort (fun a b => decide (a ≤ b))).idxOf label, rfl, ?_⟩
  intro label member other member' same
  apply (idxOf_inj _).mp same
  rw [mem_mergeSort, mem_dedup]
  exact member

omit [Field K] in
theorem members_renamed [DecidableEq ι] {rename : ι → Nat} {index : List ι}
    (apart : ∀ label ∈ index, ∀ other ∈ index, rename label = rename other → label = other) (scores : List K)
    {label : ι} (member : label ∈ index) :
    members ((index.map rename).zip scores) (rename label) = members (index.zip scores) label := by
  have renamed : (index.map rename).zip scores = (index.zip scores).map (fun entry => (rename entry.1, entry.2)) := by
    rw [zip_map_left]
    rfl
  rw [renamed]
  apply members_rename
  intro entry inside equal
  exact apart _ (of_mem_zip inside).1 _ member equal

theorem indexAdd_getD {G g : Nat} (inside : g < G) (gidx : List Nat) (values : List K) :
    (indexAdd G gidx values).getD g 0 = (members (gidx.zip values) g).sum := by
  simp [indexAdd, inside]

theorem bincount_getD {inv : List Nat} {g : Nat} (member : g ∈ inv) (values : List K) :
    (bincount inv values).getD g 0 = (members (inv.zip values) g).sum := by
  rw [bincount]
  cases largest : inv.max? with
  | none =>
    rw [max?_eq_none_iff.mp largest] at member
    cases member
  | some bound =>
    have inside : g ≤ bound := (max?_eq_some_iff.mp largest).2 g member
    exact indexAdd_getD (Nat.lt_succ_of_le inside) inv values

theorem members_ones {inv : List Nat} (g : Nat) (scores : List K) :
    (members (inv.zip (scores.map (fun _ => (1 : K)))) g).sum = (members (inv.zip scores) g).length := by
  rw [members_zip_map, map_const', sum_replicate, nsmul_eq_mul, mul_one]

variable [LinearOrder K] {width : Nat}

def leaveOneOutVectorized (group : List K) (score : K) : K :=
  ((group.length : K) * score - group.sum) / max ((group.length : K) - 1) 1 * (if (group.length : K) > 1 then 1 else 0)

omit [Field K] [LinearOrder K] in
private theorem zipWith_labels {α : Type} (combine : K × K → K → α) (first second : ι → K) (index : List ι)
    (scores : List K) :
    zipWith combine ((index.map first).zip scores) (index.map second) =
      (index.zip scores).map (fun entry => combine (first entry.1, entry.2) (second entry.1)) := by
  induction index generalizing scores with
  | nil => rfl
  | cons label index ih =>
    cases scores with
    | nil => rfl
    | cons score scores =>
      simp only [map_cons, zip_cons_cons, zipWith_cons_cons, ih]

theorem computeRlooVectorized_eq [LinearOrder ι] {batch : List (Vector (Token K) width)} {index : List ι}
    (aligned : index.length = batch.length) :
    let entries := index.zip (scoresOf batch)
    let advantages := unsqueezeMask (entries.map (fun entry =>
      leaveOneOutVectorized (members entries entry.1) entry.2)) batch
    computeRlooVectorizedOutcomeAdvantage batch index = (advantages, advantages) := by
  intro entries advantages
  obtain ⟨rename, isInverse, apart⟩ := uniqueInverse_spec index
  have length : index.length = (scoresOf batch).length := by rw [aligned, scoresOf, length_map]
  have same : ∀ label ∈ index, members ((index.map rename).zip (scoresOf batch)) (rename label) =
      members entries label := fun label member => members_renamed apart (scoresOf batch) member
  have ones : (index.map rename).map (fun _ => (1 : K)) = (scoresOf batch).map (fun _ => (1 : K)) := by
    rw [map_const', map_const', length_map, length]
  have counts : (index.map rename).map (fun g =>
      (bincount (index.map rename) ((index.map rename).map (fun _ => (1 : K)))).getD g 0) =
      index.map (fun label => ((members entries label).length : K)) := by
    rw [map_map]
    apply map_congr_left
    intro label member
    rw [Function.comp_apply, bincount_getD (mem_map_of_mem member), ones, members_ones, same label member]
  have sums : (index.map rename).map (fun g => (bincount (index.map rename) (scoresOf batch)).getD g 0) =
      index.map (fun label => (members entries label).sum) := by
    rw [map_map]
    apply map_congr_left
    intro label member
    rw [Function.comp_apply, bincount_getD (mem_map_of_mem member), same label member]
  simp only [computeRlooVectorizedOutcomeAdvantage, isInverse, counts, sums, zipWith_labels]
  rfl

end Tensors

/-! ### Means and deviations -/

section Statistics
variable {K : Type}

private theorem zipWith_range {α β γ : Type} (combine : α → β → γ) (f : Nat → α) (g : Nat → β) (count : Nat) :
    zipWith combine ((range count).map f) ((range count).map g) =
      (range count).map (fun i => combine (f i) (g i)) := by
  rw [zipWith_map, zipWith_self]

theorem gatherAt_range {g G : Nat} (inside : g < G) (f : Nat → K) : gatherAt ((range G).map f) g = .ok (f g) := by
  have place : position ((range G).map f).length g = some g := position_of_nat (by simpa using inside)
  rw [gatherAt, getItem, place, Option.bind_some, getElem?_map, getElem?_range inside]
  rfl

variable [Field K]

private theorem zip_centered (f : Nat → K) (inv : List Nat) (scores : List K) :
    inv.zip (zipWith (fun score g => score - f g) scores inv) =
      (inv.zip scores).map (fun entry => (entry.1, entry.2 - f entry.1)) := by
  induction inv generalizing scores with
  | nil => rfl
  | cons g inv ih =>
    cases scores with
    | nil => rfl
    | cons score scores => exact congrArg (_ :: ·) (ih scores)

theorem indexAdd_squares {G : Nat} (f : Nat → K) (inv : List Nat) (scores : List K) :
    indexAdd G inv ((zipWith (fun score g => score - f g) scores inv).map (fun c => c * c)) =
      (range G).map (fun g => (((members (inv.zip scores) g).map (fun score => score - f g)).map (fun c => c * c)).sum) := by
  apply map_congr_left
  intro g _
  rw [members_zip_map, zip_centered, members_map (fun g score => score - f g)]

theorem indexAdd_ones {G : Nat} (inv : List Nat) (scores : List K) : indexAdd G inv (scores.map (fun _ => (1 : K))) =
      (range G).map (fun g => ((members (inv.zip scores) g).length : K)) := by
  apply map_congr_left
  intro g _
  exact members_ones g scores

variable [LinearOrder K]

def meanOf (group : List K) : K := if (group.length : K) ≤ 1 then 0 else group.sum / max (group.length : K) 1

def stdOf (sqrt : K → K) (group : List K) : K :=
  let centered := group.map (fun score => score - group.sum / max (group.length : K) 1)
  if (group.length : K) ≤ 1 then 1
  else sqrt (max ((centered.map (fun c => c * c)).sum / max ((group.length : K) - 1) 1) 0)

theorem groupMeanStd_eq (sqrt : K → K) {scores : List K} {inv : List Nat} {largest : Nat}
    (isLargest : inv.max? = some largest) (aligned : scores.length = inv.length) :
    let group := members (inv.zip scores)
    groupMeanStd sqrt scores (inv.map (fun g : Nat => (g : Int))) 0 = .ok {
      mean := (range (largest + 1)).map (fun g => meanOf (group g))
      std := (range (largest + 1)).map (fun g => stdOf sqrt (group g))
      count := (range (largest + 1)).map (fun g => ((group g).length : K)) } := by
  intro group
  obtain ⟨reached, bounded⟩ := max?_eq_some_iff.mp isLargest
  have isMax : (inv.map (fun g : Nat => (g : Int))).max? = some (largest : Int) := by
    apply max?_eq_some_iff.mpr
    refine ⟨mem_map_of_mem reached, ?_⟩
    intro g member
    obtain ⟨g, inside, rfl⟩ := mem_map.mp member
    exact_mod_cast bounded g inside
  have natural : (inv.map (fun g : Nat => (g : Int))).any (· < 0) = false := by simp
  have again : (inv.map (fun g : Nat => (g : Int))).map Int.toNat = inv := by simp [Function.comp_def]
  have size : ((largest : Int) + 1).toNat = largest + 1 := by omega
  have counts : indexAdd (largest + 1) inv (scores.map (fun _ => (1 : K))) =
      (range (largest + 1)).map (fun g => ((group g).length : K)) := indexAdd_ones inv scores
  have squares : ∀ f : Nat → K, indexAdd (largest + 1) inv
      ((zipWith (fun score g => score - f g) scores inv).map (fun c => c * c)) =
      (range (largest + 1)).map (fun g => (((group g).map (fun score => score - f g)).map (fun c => c * c)).sum) :=
    fun f => indexAdd_squares f inv scores
  have means : zipWith (fun s n => s / max n 1) (indexAdd (largest + 1) inv scores)
      ((range (largest + 1)).map (fun g => ((group g).length : K))) =
      (range (largest + 1)).map (fun g => (group g).sum / max ((group g).length : K) 1) := zipWith_range _ _ _ _
  have found : ∀ g ∈ range (largest + 1),
      ((range (largest + 1)).map (fun g => (group g).sum / max ((group g).length : K) 1)).getD g 0 =
        (group g).sum / max ((group g).length : K) 1 := by
    intro g member
    simp [mem_range.mp member]
  have positive : ¬ (largest : Int) + 1 = 0 := by omega
  have nonnegative : ¬ (largest : Int) + 1 < 0 := by omega
  rw [groupMeanStd, if_neg (by simpa using aligned)]
  simp only [isMax, positive, nonnegative, natural, again, size, counts, means, squares, if_false, Bool.false_eq_true,
    map_map, zipWith_range]
  congr 2
  apply map_congr_left
  intro g member
  have centered := found g member
  simp only [stdOf, Function.comp_def, centered, map_map]

end Statistics

/-! ### Labels -/

section Labels

/-- A hexadecimal digit. -/
def isHex (c : Char) : Bool := c.isDigit || ('a' ≤ c && c ≤ 'f') || ('A' ≤ c && c ≤ 'F')

/-- Hexadecimal digits, with hyphens at four places. -/
def isUuid (text : String) : Bool :=
  text.toList.length == 36 && text.toList.zipIdx.all (fun place =>
    if place.2 = 8 ∨ place.2 = 13 ∨ place.2 = 18 ∨ place.2 = 23 then place.1 == '-' else isHex place.1)

/-- The labels are all UUIDs or all integers from zero on. -/
def Named (labels : List Label) : Prop :=
  (∀ label ∈ labels, ∃ text, label = .text text ∧ isUuid text = true) ∨ ∀ label ∈ labels, ∃ value : Nat, label = .int value

theorem readDigits_chars {value : Nat} {chars : List Char} {n : Nat} (read : readDigits value chars = some n) :
    ∀ c ∈ chars, c.isDigit = true ∨ c = '_' := by
  induction value, chars using readDigits.induct with
  | case1 value => simp
  | case2 value c rest isDigit ih =>
    rw [readDigits.eq_def] at read
    simp only [isDigit, if_true] at read
    intro d member
    rcases mem_cons.mp member with rfl | later
    · exact Or.inl isDigit
    · exact ih read d later
  | case3 value c other =>
    rw [readDigits, if_neg other] at read
    cases read
  | case4 value c other d rest separated ih =>
    simp only [readDigits, separated, and_self, if_true] at read
    intro e member
    rcases mem_cons.mp member with rfl | later
    · exact Or.inr separated.1
    · rcases mem_cons.mp later with rfl | later
      · exact Or.inl separated.2
      · exact ih read e later
  | case5 value c other d rest unseparated =>
    simp only [readDigits, other, unseparated, if_false] at read
    cases read

theorem readNat_hyphen {c : Char} {rest : List Char} (hyphen : '-' ∈ rest) : readNat (c :: rest) = none := by
  rw [readNat]
  split
  · cases read : readDigits (digit c) rest with
    | none => rfl
    | some n =>
      rcases readDigits_chars read '-' hyphen with isDigit | underscore
      · simp at isDigit
      · simp at underscore
  · rfl

theorem isHex_plain {c : Char} (hex : isHex c = true) : isSpace c = false ∧ c ≠ '+' ∧ c ≠ '-' := by
  have range : (48 ≤ c.toNat ∧ c.toNat ≤ 57) ∨ (97 ≤ c.toNat ∧ c.toNat ≤ 102) ∨ (65 ≤ c.toNat ∧ c.toNat ≤ 70) := by
    simp only [isHex, Bool.or_eq_true, Bool.and_eq_true, decide_eq_true_eq, Char.isDigit] at hex
    rcases hex with (digit | lower) | upper
    · exact Or.inl digit
    · exact Or.inr (Or.inl lower)
    · exact Or.inr (Or.inr upper)
  refine ⟨?_, ?_, ?_⟩
  · simp only [isSpace, Bool.or_eq_false_iff, Bool.and_eq_false_iff, decide_eq_false_iff_not, beq_eq_false_iff_ne]
    omega
  · rintro rfl
    simp at range
  · rintro rfl
    simp at range

theorem dropWhile_head {p : Char → Bool} {chars : List Char} (nonempty : chars ≠ [])
    (first : p (chars.head nonempty) = false) : chars.dropWhile p = chars := by
  cases chars with
  | nil => exact absurd rfl nonempty
  | cons c rest => exact dropWhile_cons_of_neg (by simpa using first)

theorem strip_plain {chars : List Char} (nonempty : chars ≠ []) (first : isSpace (chars.head nonempty) = false)
    (last : isSpace (chars.getLast nonempty) = false) :
    ((chars.dropWhile isSpace).reverse.dropWhile isSpace).reverse = chars := by
  have reversed : chars.reverse ≠ [] := reverse_ne_nil_iff.mpr nonempty
  rw [dropWhile_head nonempty first, dropWhile_head reversed, reverse_reverse]
  rw [head_reverse]
  exact last

theorem uuid_not_int {text : String} (uuid : isUuid text = true) : pythonInt text.toList = none := by
  simp only [isUuid, Bool.and_eq_true, beq_iff_eq, all_eq_true] at uuid
  obtain ⟨length, places⟩ := uuid
  have place : ∀ i (inside : i < text.toList.length),
      (if i = 8 ∨ i = 13 ∨ i = 18 ∨ i = 23 then text.toList[i] == '-' else isHex text.toList[i]) = true := by
    intro i inside
    exact places (text.toList[i], i) (mk_mem_zipIdx_iff_getElem?.mpr (getElem?_eq_getElem inside))
  generalize text.toList = chars at *
  obtain ⟨first, rest, rfl⟩ := exists_cons_of_ne_nil (ne_nil_of_length_pos (by omega : 0 < chars.length))
  have head : isHex first = true := by
    have zeroth := place 0 (Nat.succ_pos _)
    rwa [if_neg (by omega)] at zeroth
  have hyphen : '-' ∈ rest := by
    have eighth := place 8 (by omega)
    simp only [true_or, if_true, beq_iff_eq, getElem_cons_succ] at eighth
    rw [← eighth]
    exact getElem_mem _
  have last : isHex ((first :: rest).getLast (cons_ne_nil _ _)) = true := by
    rw [getLast_eq_getElem]
    have final := place ((first :: rest).length - 1) (by omega)
    rwa [if_neg (by omega)] at final
  obtain ⟨space, plus, minus⟩ := isHex_plain head
  rw [pythonInt, strip_plain (cons_ne_nil _ _) space (isHex_plain last).1]
  split
  · rename_i same
    cases same
    exact absurd rfl plus
  · rename_i same
    cases same
    exact absurd rfl minus
  · rw [readNat_hyphen hyphen]
    rfl

def numberOf : Label → Nat
  | .int value => value.toNat
  | .text _ => 0

/-- The groups of the labels are numbered, one number for each label. -/
def Renames (labels : List Label) (indices : List Int) : Prop :=
  ∃ rename : Label → Nat, indices = labels.map (fun label => (rename label : Int)) ∧
    ∀ label ∈ labels, ∀ other ∈ labels, rename label = rename other → label = other

theorem renames_numbers {labels : List Label} {indices : List Int}
    (numbers : ∀ label ∈ labels, ∃ value : Nat, label = .int value)
    (same : indices = labels.map (fun label => (numberOf label : Int))) : Renames labels indices := by
  refine ⟨numberOf, same, ?_⟩
  intro label member other member' equal
  obtain ⟨value, rfl⟩ := numbers label member
  obtain ⟨value', rfl⟩ := numbers other member'
  simpa [numberOf] using equal

theorem renames_unique {α : Type} [LinearOrder α] {labels : List Label} (value : Label → α)
    (apart : ∀ label ∈ labels, ∀ other ∈ labels, value label = value other → label = other) :
    Renames labels ((uniqueInverse (labels.map value)).map (fun inv : Nat => (inv : Int))) := by
  obtain ⟨rename, isInverse, distinct⟩ := uniqueInverse_spec (labels.map value)
  refine ⟨fun label => rename (value label), ?_, ?_⟩
  · rw [isInverse, map_map, map_map]
    rfl
  · intro label member other member' equal
    apply apart label member other member'
    exact distinct _ (mem_map_of_mem member) _ (mem_map_of_mem member') equal

theorem factorize_renames {labels : List Label} (named : Named labels) :
    Renames labels ((factorize labels).map (fun inv : Nat => (inv : Int))) := by
  rcases named with texts | numbers
  · cases labels with
    | nil => exact ⟨fun _ => 0, rfl, by simp⟩
    | cons first rest =>
      have isText : ∀ label ∈ first :: rest, Label.toText? label = some (Label.str label) := by
        intro label member
        obtain ⟨text, rfl, _⟩ := texts label member
        rfl
      have notInt : (first :: rest).mapM Label.toInt? = none := by
        obtain ⟨text, rfl, _⟩ := texts first mem_cons_self
        rfl
      rw [factorize, notInt, mapM_some Label.str isText]
      apply renames_unique
      intro label member other member' equal
      obtain ⟨text, rfl, _⟩ := texts label member
      obtain ⟨text', rfl, _⟩ := texts other member'
      exact congrArg Label.text equal
  · have isInt : ∀ label ∈ labels, Label.toInt? label = some (numberOf label : Int) := by
      intro label member
      obtain ⟨value, rfl⟩ := numbers label member
      simp [Label.toInt?, numberOf]
    rw [factorize, mapM_some (fun label => (numberOf label : Int)) isInt]
    apply renames_unique
    intro label member other member' equal
    obtain ⟨value, rfl⟩ := numbers label member
    obtain ⟨value', rfl⟩ := numbers other member'
    simpa [numberOf] using equal

theorem coerce_renames {labels : List Label} (named : Named labels) :
    Renames labels (match labels.mapM coerce with
      | some coerced => coerced
      | none => (factorize labels).map (fun inv : Nat => (inv : Int))) := by
  cases coerced : labels.mapM coerce with
  | none => exact factorize_renames named
  | some indices =>
    rcases named with texts | numbers
    · cases labels with
      | nil =>
        cases coerced
        exact ⟨fun _ => 0, rfl, by simp⟩
      | cons first rest =>
        obtain ⟨text, rfl, uuid⟩ := texts first mem_cons_self
        rw [mapM_cons, coerce, uuid_not_int uuid] at coerced
        cases coerced
    · apply renames_numbers numbers
      apply mapM_some_eq _ coerced
      intro label member value found
      obtain ⟨number, rfl⟩ := numbers label member
      simp only [coerce, int64] at found
      split at found
      · cases found
        simp [numberOf]
      · cases found

theorem renames_values {α : Type} {labels : List α} (value : α → Int) (named : Named (labels.map (fun label => .int (value label)))) :
    Renames (labels.map (fun label => .int (value label))) (labels.map value) := by
  rcases named with texts | numbers
  · cases labels with
    | nil => exact ⟨fun _ => 0, rfl, by simp⟩
    | cons first rest =>
      obtain ⟨text, isText, _⟩ := texts _ mem_cons_self
      cases isText
  · apply renames_numbers numbers
    rw [map_map]
    apply map_congr_left
    intro label member
    obtain ⟨number, isNumber⟩ := numbers _ (mem_map_of_mem member)
    rw [Label.int.injEq] at isNumber
    simp [numberOf, isNumber]

/-- An unsigned label from 2^63 on becomes negative. -/
def Wraps : Index → Prop
  | .unsigned labels => ∃ label ∈ labels, 2 ^ 63 ≤ label.toNat
  | _ => False

theorem asTorchIndex_renames {index : Index} (named : Named index.labels) (fits : ¬ Wraps index) :
    Renames index.labels (asTorchIndex index) := by
  cases index with
  | signed labels => exact renames_values BitVec.toInt named
  | unsigned labels =>
    have values : labels.map BitVec.toInt = labels.map (fun label => (label.toNat : Int)) := by
      apply map_congr_left
      intro label member
      have small : label.toNat < 2 ^ 63 := by
        by_contra large
        exact fits ⟨label, member, Nat.le_of_not_lt large⟩
      rw [BitVec.toInt_eq_toNat_cond, if_pos (by omega)]
    rw [asTorchIndex, values]
    exact renames_values (fun label : BitVec 64 => (label.toNat : Int)) named
  | text labels => exact coerce_renames named
  | objects labels => exact coerce_renames named

end Labels

/-! ### The two versions -/

section Versions
variable {ι K : Type} [Field K] [LinearOrder K] [IsStrictOrderedRing K] {width : Nat}

/-- `token_level_rewards[i].sum()` -/
def scoreOf (row : Vector (Token K) width) : K := (row.toList.map Token.reward).sum

omit [LinearOrder K] [IsStrictOrderedRing K] in
theorem unsqueezeMask_zip (f : ι × K → K) (index : List ι) (batch : List (Vector (Token K) width)) :
    unsqueezeMask ((index.zip (scoresOf batch)).map f) batch = (index.zip batch).map (fun entry =>
      entry.2.toList.map (fun token => f (entry.1, scoreOf entry.2) * weight token.valid)) := by
  induction index generalizing batch with
  | nil => rfl
  | cons label index ih =>
    cases batch with
    | nil => rfl
    | cons row batch => exact congrArg (_ :: ·) (ih batch)

omit [LinearOrder K] [IsStrictOrderedRing K] in
theorem mem_scores {index : List ι} {batch : List (Vector (Token K) width)} {entry : ι × Vector (Token K) width}
    (member : entry ∈ index.zip batch) : (entry.1, scoreOf entry.2) ∈ index.zip (scoresOf batch) := by
  have scores : scoresOf batch = batch.map scoreOf := rfl
  rw [scores, zip_map_right]
  exact mem_map_of_mem member

omit [Field K] [LinearOrder K] [IsStrictOrderedRing K] in
theorem members_count [DecidableEq ι] {index : List ι} {scores : List K} (aligned : index.length = scores.length)
    (label : ι) : (members (index.zip scores) label).length = index.count label := by
  induction index generalizing scores with
  | nil => rfl
  | cons first index ih =>
    cases scores with
    | nil => cases aligned
    | cons score scores =>
      rw [zip_cons_cons, members_cons, count_cons, ← ih (Nat.succ.inj aligned)]
      by_cases same : first = label
      · simp [same]
      · simp [same]

/-- Against several scores both versions agree; alone, one keeps the score and the other has none. -/
theorem leaveOneOut_eq {group : List K} {score : K} (member : score ∈ group) :
    leaveOneOut group score - leaveOneOutVectorized group score = if group.length = 1 then score else 0 := by
  have filled : 0 < group.length := length_pos_of_mem member
  by_cases single : group.length = 1
  · simp [leaveOneOut, leaveOneOutVectorized, single]
  · have several : 1 < group.length := by omega
    have count : (1 : K) < group.length := by exact_mod_cast several
    have next : (1 : K) ≤ group.length - 1 := by
      have two : (2 : K) ≤ group.length := by exact_mod_cast several
      linarith
    have positive : (group.length : K) ≠ 0 := by positivity
    have others : (group.length : K) - 1 ≠ 0 := by linarith
    rw [leaveOneOut, leaveOneOutVectorized, if_pos several, if_pos count, if_neg single, max_eq_left next, mean]
    field_simp
    ring

/-- The versions agree exactly when every response that is alone in its group has no score, or no
valid token to put it on. -/
theorem rloo_versions [LinearOrder ι] {batch : List (Vector (Token K) width)} {index : List ι}
    (aligned : index.length = batch.length) :
    computeRlooOutcomeAdvantage batch index = .ok (computeRlooVectorizedOutcomeAdvantage batch index) ↔
      ∀ entry ∈ index.zip batch, index.count entry.1 = 1 →
        scoreOf entry.2 = 0 ∨ ∀ token ∈ entry.2.toList, token.valid = false := by
  have length : index.length = (scoresOf batch).length := by rw [aligned, scoresOf, List.length_map]
  rw [computeRloo_eq, computeRlooVectorized_eq aligned, Except.ok.injEq, Prod.mk.injEq, and_self, unsqueezeMask_zip,
    unsqueezeMask_zip, List.map_inj_left]
  apply forall_congr'
  intro entry
  apply imp_congr_right
  intro member
  have difference := leaveOneOut_eq (mem_members.mpr (mem_scores member))
  rw [members_count length] at difference
  rw [List.map_inj_left]
  constructor
  · intro same single
    rw [if_pos single] at difference
    by_cases empty : ∀ token ∈ entry.2.toList, token.valid = false
    · exact Or.inr empty
    · simp only [not_forall] at empty
      obtain ⟨token, inside, valid⟩ := empty
      have equal := same token inside
      rw [Bool.eq_true_of_not_eq_false valid, weight_true, mul_one, mul_one] at equal
      rw [equal, sub_self] at difference
      exact Or.inl difference.symm
  · intro alone token inside
    by_cases single : index.count entry.1 = 1
    · rcases alone single with zero | empty
      · rw [if_pos single, zero, sub_eq_zero] at difference
        rw [zero, difference]
      · rw [empty token inside, weight_false, mul_zero, mul_zero]
    · rw [if_neg single, sub_eq_zero] at difference
      rw [difference]

theorem meanOf_eq {group : List K} (filled : group ≠ []) : meanOf group = ofGroup 0 mean group := by
  have positive : 0 < group.length := length_pos_of_ne_nil filled
  rw [meanOf, ofGroup, mean]
  by_cases single : group.length = 1
  · simp [single]
  · have several : (1 : K) < group.length := by exact_mod_cast (by omega : 1 < group.length)
    rw [if_neg (not_le.mpr several), if_neg single, max_eq_left several.le]

theorem stdOf_eq (sqrt : K → K) {group : List K} (filled : group ≠ []) : stdOf sqrt group = ofGroup 1 (std sqrt) group := by
  have positive : 0 < group.length := length_pos_of_ne_nil filled
  rw [stdOf, ofGroup, std]
  by_cases single : group.length = 1
  · simp [single]
  · have several : (1 : K) < group.length := by exact_mod_cast (by omega : 1 < group.length)
    have next : (1 : K) ≤ group.length - 1 := by
      have two : (2 : K) ≤ group.length := by exact_mod_cast (by omega : 2 ≤ group.length)
      linarith
    have squares : (group.map (fun score => score - group.sum / max (group.length : K) 1)).map (fun c => c * c) =
        group.map (fun score => (score - mean group) ^ 2) := by
      rw [map_map, max_eq_left several.le]
      apply map_congr_left
      intro score _
      exact (sq _).symm
    have nonnegative : 0 ≤ (group.map (fun score => (score - mean group) ^ 2)).sum := by
      apply sum_nonneg
      intro square member
      obtain ⟨score, _, rfl⟩ := mem_map.mp member
      exact sq_nonneg _
    have variance : 0 ≤ (group.map (fun score => (score - mean group) ^ 2)).sum / ((group.length : K) - 1) :=
      div_nonneg nonnegative (by linarith)
    rw [if_neg (not_le.mpr several), if_neg single, squares, max_eq_left next, max_eq_left variance]

theorem normalized_gathered (sqrt : K → K) {entries : List (Nat × K)} {largest g : Nat} (small : g < largest + 1)
    (filled : members entries g ≠ []) (epsilon : K) (normAdvByStdInGrpo : Bool) (score : K) :
    (do
      let mean ← gatherAt ((range (largest + 1)).map (fun g => meanOf (members entries g))) g
      if normAdvByStdInGrpo then
        let std ← gatherAt ((range (largest + 1)).map (fun g => stdOf sqrt (members entries g))) g
        return (score - mean) / (std + epsilon)
      else return score - mean) =
      (.ok (normalized sqrt epsilon normAdvByStdInGrpo (members entries g) score) : Except Failure K) := by
  simp only [gatherAt_range small, ok_bind, normalized, meanOf_eq filled, stdOf_eq sqrt filled]
  cases normAdvByStdInGrpo <;> rfl

theorem computeGrpoVectorized_eq (sqrt : K → K) {batch : List (Vector (Token K) width)} {index : Index}
    (aligned : index.labels.length = batch.length) (renames : Renames index.labels (asTorchIndex index)) (epsilon : K)
    (normAdvByStdInGrpo : Bool) :
    let entries := index.labels.zip (scoresOf batch)
    let advantages := unsqueezeMask (entries.map (fun entry =>
      normalized sqrt epsilon normAdvByStdInGrpo (members entries entry.1) entry.2)) batch
    computeGrpoVectorizedOutcomeAdvantage sqrt batch index epsilon normAdvByStdInGrpo = .ok (advantages, advantages) := by
  intro entries advantages
  have length : (scoresOf batch).length = index.labels.length := by rw [aligned, scoresOf, length_map]
  obtain ⟨rename, isIndex, apart⟩ := renames
  have indices : asTorchIndex index = (index.labels.map rename).map (fun g : Nat => (g : Int)) := by
    rw [isIndex, map_map]
    rfl
  cases isLargest : (index.labels.map rename).max? with
  | none =>
    have empty : index.labels = [] := map_eq_nil_iff.mp (max?_eq_none_iff.mp isLargest)
    have none : batch = [] := eq_nil_of_length_eq_zero (by rw [← aligned, empty, length_nil])
    subst none
    simp only [advantages, entries, empty]
    simp only [computeGrpoVectorizedOutcomeAdvantage, indices, empty]
    rfl
  | some largest =>
    have statistics := groupMeanStd_eq sqrt isLargest (by rw [length, length_map])
    have bounded := (max?_eq_some_iff.mp isLargest).2
    have zipped : ((index.labels.map rename).map (fun g : Nat => (g : Int))).zip (scoresOf batch) =
        entries.map (fun entry => ((rename entry.1 : Int), entry.2)) := by
      rw [← indices, isIndex, zip_map_left]
      rfl
    have same : ∀ entry ∈ entries, members ((index.labels.map rename).zip (scoresOf batch)) (rename entry.1) =
        members entries entry.1 := fun entry member => members_renamed apart (scoresOf batch) (of_mem_zip member).1
    simp only [computeGrpoVectorizedOutcomeAdvantage, indices, zipped, statistics, ok_bind]
    have each : ∀ item ∈ entries.map (fun entry => ((rename entry.1 : Int), entry.2)), (do
        let mean ← gatherAt ((range (largest + 1)).map (fun g =>
          meanOf (members ((index.labels.map rename).zip (scoresOf batch)) g))) item.1
        if normAdvByStdInGrpo then
          let std ← gatherAt ((range (largest + 1)).map (fun g =>
            stdOf sqrt (members ((index.labels.map rename).zip (scoresOf batch)) g))) item.1
          return (item.2 - mean) / (std + epsilon)
        else return item.2 - mean) =
        (.ok (normalized sqrt epsilon normAdvByStdInGrpo
          (members ((index.labels.map rename).zip (scoresOf batch)) item.1.toNat) item.2) : Except Failure K) := by
      intro item member
      obtain ⟨entry, inside, rfl⟩ := mem_map.mp member
      have small : rename entry.1 < largest + 1 :=
        Nat.lt_succ_of_le (bounded _ (mem_map_of_mem (of_mem_zip inside).1))
      have filled : members ((index.labels.map rename).zip (scoresOf batch)) (rename entry.1) ≠ [] := by
        rw [same entry inside]
        exact members_ne_nil.mpr (mem_map_of_mem inside)
      exact normalized_gathered sqrt small filled epsilon normAdvByStdInGrpo entry.2
    rw [mapM_map _ each, map_map]
    have agree : entries.map ((fun item : Int × K => normalized sqrt epsilon normAdvByStdInGrpo
        (members ((index.labels.map rename).zip (scoresOf batch)) item.1.toNat) item.2) ∘
          fun entry => ((rename entry.1 : Int), entry.2)) =
        entries.map (fun entry => normalized sqrt epsilon normAdvByStdInGrpo (members entries entry.1) entry.2) := by
      apply map_congr_left
      intro entry member
      rw [Function.comp_apply, Int.toNat_natCast, same entry member]
    rw [agree]
    rfl

omit [IsStrictOrderedRing K] in
theorem groupMeanStd_negative (sqrt : K → K) {scores : List K} {gidx : List Int} {g : Int} (member : g ∈ gidx)
    (negative : g < 0) {statistics : GroupStatistics K} (returned : groupMeanStd sqrt scores gidx 0 = .ok statistics) :
    statistics.mean = [] := by
  have found : gidx.any (· < 0) = true := any_eq_true.mpr ⟨g, member, by simpa using negative⟩
  rw [groupMeanStd] at returned
  split at returned
  · cases returned
  · cases isLargest : gidx.max? with
    | none =>
      rw [max?_eq_none_iff.mp isLargest] at member
      cases member
    | some largest =>
      simp only [isLargest] at returned
      split at returned
      · cases returned
        rfl
      · split at returned <;> cases returned

omit [IsStrictOrderedRing K] in
theorem computeGrpoVectorized_wraps (sqrt : K → K) {batch : List (Vector (Token K) width)} {index : Index}
    (aligned : index.labels.length = batch.length) (wraps : Wraps index) (epsilon : K) (normAdvByStdInGrpo : Bool)
    (advantages : List (List K) × List (List K)) :
    computeGrpoVectorizedOutcomeAdvantage sqrt batch index epsilon normAdvByStdInGrpo ≠ .ok advantages := by
  intro returned
  cases index with
  | signed labels => cases wraps
  | text labels => cases wraps
  | objects labels => cases wraps
  | unsigned labels =>
    obtain ⟨label, member, large⟩ := wraps
    have negative : label.toInt < 0 := by
      rw [BitVec.toInt_eq_toNat_cond, if_neg (by omega)]
      have small := label.isLt
      omega
    rw [computeGrpoVectorizedOutcomeAdvantage] at returned
    obtain ⟨statistics, made, returned⟩ := bind_eq_ok.mp returned
    obtain ⟨scalars, gathered, _⟩ := bind_eq_ok.mp returned
    have empty := groupMeanStd_negative sqrt (mem_map_of_mem member) negative made
    cases labels with
    | nil => cases member
    | cons first rest =>
      cases batch with
      | nil => cases aligned
      | cons row batch =>
        have each := mapM_succeeded gathered
        rw [asTorchIndex, scoresOf, map_cons, map_cons, zip_cons_cons] at each
        obtain ⟨_, _, head⟩ := forall₂_left each mem_cons_self
        obtain ⟨_, mean, _⟩ := bind_eq_ok.mp head
        have none : getItem ([] : List K) first.toInt = Option.none := by
          rw [getItem]
          cases position ([] : List K).length first.toInt <;> rfl
        rw [empty, gatherAt, none] at mean
        cases mean

/-- A response with one token, and its group. -/
def lone : Vector (Token ℚ) 1 := #v[⟨1, true⟩]

def first : Nat := 0

theorem rloo_versions_pair :
    computeRlooOutcomeAdvantage [lone, lone] [first, first] =
      .ok (computeRlooVectorizedOutcomeAdvantage [lone, lone] [first, first]) := by
  have aligned : [first, first].length = [lone, lone].length := rfl
  apply (rloo_versions aligned).mpr
  simp

/-- The plain version keeps the score of a response without others; the vectorised one drops it. -/
theorem lone_response_differs :
    computeRlooOutcomeAdvantage [lone] [first] ≠ .ok (computeRlooVectorizedOutcomeAdvantage [lone] [first]) := by
  have aligned : [first].length = [lone].length := rfl
  rw [computeRloo_eq, computeRlooVectorized_eq aligned]
  simp [unsqueezeMask, scoresOf, lone, leaveOneOut, leaveOneOutVectorized, members]

end Versions

end LLMFusion.CoreAlgos
