import LLMFusion.BfclMultiturn
import Mathlib.Data.List.Perm.Subperm

/-! The reference calls are accepted, however they are split into steps and whatever is inserted between them, while no instance
keeps a reference to a shared object. In a long context `TravelAPI` keeps the cards and bookings of its module. -/

namespace LLMFusion.BfclMultiturn
open List

variable {Config Own Shared Value : Type} {backends : Backends Config Own Shared Value}

/-! ### Inserted calls -/

/-- The reference calls in order, between calls that leave every instance and the shared objects as they are. -/
inductive Inserts (backends : Backends Config Own Shared Value) (methodMapping : List (String × String)) :
    Instances Own → Shared → List String → List String → Instances Own → Shared → Prop where
  | done (instances : Instances Own) (shared : Shared) :
    Inserts backends methodMapping instances shared [] [] instances shared
  | reference {instances after : Instances Own} {shared shared' : Shared} {call : String}
    {calls references : List String}
      (rest : Inserts backends methodMapping (executeCall backends methodMapping call instances shared).2.1
        (executeCall backends methodMapping call instances shared).2.2 calls references after shared') :
      Inserts backends methodMapping instances shared (call :: calls) (call :: references) after shared'
  | further {instances after : Instances Own} {shared shared' : Shared} {call : String}
    {calls references : List String}
      (unchanged : (executeCall backends methodMapping call instances shared).2 = (instances, shared))
      (rest : Inserts backends methodMapping instances shared calls references after shared') :
      Inserts backends methodMapping instances shared (call :: calls) references after shared'

/-- The turns of the model are those of the ground truth with inserted calls, each split into steps in some way. -/
inductive Follows (backends : Backends Config Own Shared Value) :
    Instances Own → Instances Own → Shared → List (List (List String)) → List (List String) → Prop where
  | nil (model groundTruth : Instances Own) (shared : Shared) (decoded : List (List (List String))) :
      Follows backends model groundTruth shared decoded []
  | turn {model groundTruth after : Instances Own} {shared shared' : Shared}
    {decoded : List (List (List String))}
      {references : List String} {turns : List (List String)}
      (inserts : Inserts backends (buildMethodMapping backends (model.map Prod.fst)) model shared
        (decoded.headD []).flatten
        references after shared')
      (rest : Follows backends after (executeCalls backends references groundTruth shared').2.1
        (executeCalls backends references groundTruth shared').2.2 decoded.tail turns) :
      Follows backends model groundTruth shared decoded (references :: turns)

/-- Which instances keep references to shared objects, and what it means not to: the methods of the other classes, and those of
`TravelAPI` without a long context, do not reach the shared objects. -/
structure Separate (backends : Backends Config Own Shared Value) (keeps : Own → Prop) : Prop where
  created : ∀ className, ¬ keeps (backends.create className)
  loaded : ∀ className config longContext, className ≠ "TravelAPI" ∨ longContext = false →
    ¬ keeps (backends.loadScenario className (backends.create className) config longContext)
  eval : ∀ processed instances shared, (∀ entry ∈ instances, ¬ keeps entry.2) →
    (backends.eval processed instances shared).2.2 = shared ∧
      ∀ entry ∈ (backends.eval processed instances shared).2.1, ¬ keeps entry.2

/-! ### Execution -/

theorem executeCall_names (methodMapping : List (String × String)) (call : String) (instances : Instances Own)
    (shared : Shared) :
    (executeCall backends methodMapping call instances shared).2.1.map Prod.fst = instances.map Prod.fst := by
  have kept := backends.keeps_names (processMethodCalls backends call methodMapping) instances shared
  simp only [executeCall]
  split
  · rfl
  · split
    · next after evaluated => rwa [evaluated] at kept
    · next after evaluated => rwa [evaluated] at kept

variable {keeps : Own → Prop} {instances : Instances Own}

theorem executeCall_separate (separate : Separate backends keeps)
    (apart : ∀ entry ∈ instances, ¬ keeps entry.2) (methodMapping : List (String × String)) (call : String)
      (shared : Shared) : (executeCall backends methodMapping call instances shared).2.2 = shared ∧
      ∀ entry ∈ (executeCall backends methodMapping call instances shared).2.1, ¬ keeps entry.2 := by
  have kept := separate.eval (processMethodCalls backends call methodMapping) instances shared apart
  simp only [executeCall]
  split
  · exact ⟨rfl, apart⟩
  · split
    · next after evaluated => rwa [evaluated] at kept
    · next after evaluated => rwa [evaluated] at kept

theorem executeWith_names (methodMapping : List (String × String)) (calls : List String) (instances : Instances Own)
    (shared : Shared) : (executeWith backends methodMapping calls instances shared).2.1.map Prod.fst =
        instances.map Prod.fst := by
  induction calls generalizing instances shared with
  | nil => rfl
  | cons call calls ih => exact (ih _ _).trans (executeCall_names methodMapping call instances shared)

theorem executeWith_append (methodMapping : List (String × String)) (first second : List String)
    (instances : Instances Own) (shared : Shared) :
    executeWith backends methodMapping (first ++ second) instances shared =
      ((executeWith backends methodMapping first instances shared).1 ++ (executeWith backends methodMapping second
          (executeWith backends methodMapping first instances shared).2.1
          (executeWith backends methodMapping first instances shared).2.2).1, (executeWith backends methodMapping second
          (executeWith backends methodMapping first instances shared).2.1
          (executeWith backends methodMapping first instances shared).2.2).2) := by
  induction first generalizing instances shared with
  | nil => rfl
  | cons call first ih => rw [cons_append, executeWith, ih]; rfl

theorem executeSteps_flatten (steps : List (List String)) (instances : Instances Own) (shared : Shared) :
    executeSteps backends steps instances shared = executeWith backends (buildMethodMapping backends
          (instances.map Prod.fst)) steps.flatten instances shared := by
  induction steps generalizing instances shared with
  | nil => rfl
  | cons step steps ih =>
    rw [flatten_cons, executeWith_append, executeSteps, ih, executeCalls, executeWith_names]

/-- With inserted calls there are the same instances at the end, and all results of the reference calls. -/
theorem Inserts.executed (separate : Separate backends keeps) {methodMapping : List (String × String)}
    {instances after : Instances Own} {shared shared' : Shared} {calls references : List String}
    (inserts : Inserts backends methodMapping instances shared calls references after shared')
    (apart : ∀ entry ∈ instances, ¬ keeps entry.2) : shared' = shared ∧ (∀ entry ∈ after, ¬ keeps entry.2) ∧
      (executeWith backends methodMapping calls instances shared).2 = (after, shared) ∧
      (executeWith backends methodMapping references instances shared).2 = (after, shared) ∧
      (executeWith backends methodMapping references instances shared).1.Sublist
        (executeWith backends methodMapping calls instances shared).1 ∧ references.Sublist calls := by
  induction inserts with
  | done instances shared => exact ⟨rfl, apart, rfl, rfl, .slnil, .slnil⟩
  | @reference instances after shared shared' call calls references rest ih =>
    obtain ⟨same, apart'⟩ := executeCall_separate separate apart methodMapping call shared
    obtain ⟨unchanged, ended, model, reference, results, sub⟩ := ih apart'
    rw [same] at unchanged model reference results
    simp only [executeWith, same]
    exact ⟨unchanged, ended, model, reference, results.cons_cons _, sub.cons_cons _⟩
  | @further instances after shared shared' call calls references unchanged rest ih =>
    obtain ⟨unchanged', ended, model, reference, results, sub⟩ := ih apart
    simp only [executeWith, unchanged]
    exact ⟨unchanged', ended, model, reference, results.cons _, sub.cons _⟩

/-! ### The checks -/

variable [DecidableEq Value]

theorem missingItems_subperm {list1 list2 : List String} (contained : list1.Subperm list2) :
    missingItems list1 list2 = [] := by
  induction list1 generalizing list2 with
  | nil => rfl
  | cons item list1 ih =>
    have member : item ∈ list2 := contained.subset mem_cons_self
    have rest := contained.erase item
    rw [erase_cons_head] at rest
    rw [missingItems, if_pos member, ih rest]

theorem differing_same (shared : Shared) (own : Own) {attrNames : List String}
    (present : ∀ name ∈ attrNames, (backends.getattr own shared name).isSome) :
    differing backends shared own own attrNames = .ok [] := by
  induction attrNames with
  | nil => rfl
  | cons name attrNames ih =>
    obtain ⟨value, found⟩ := Option.isSome_iff_exists.mp (present name mem_cons_self)
    have rest := ih (fun other member => present other (mem_cons_of_mem _ member))
    simp only [differing, found, rest]
    exact congrArg Except.ok (if_pos trivial)

theorem stateChecker_same (shared : Shared) (distinct : (instances.map Prod.fst).Nodup)
    {rest : Instances Own} (inside : rest ⊆ instances) : stateChecker backends shared instances rest = .ok none := by
  induction rest with
  | nil => rfl
  | cons entry rest ih =>
    have found := (Dictionary.mem_iff_get distinct).mp (inside mem_cons_self)
    have same : compareInstances backends shared entry.2 entry.2 = .ok [] :=
      differing_same shared entry.2 (fun name member => backends.has_vars entry.2 shared name
        (mem_of_mem_filter member))
    have others := ih (fun other member => inside (mem_cons_of_mem _ member))
    simp only [stateChecker, found, same, others]
    rfl

theorem isEmpty_flatten {steps : List (List String)} (empty : isEmptyExecuteResponse steps = true) :
    steps.flatten = [] := by
  rcases steps with _ | ⟨step, _ | ⟨other, steps⟩⟩
  · rfl
  · rw [isEmptyExecuteResponse, List.isEmpty_iff] at empty
    rw [empty]
    rfl
  · cases empty

theorem checkTurns_valid (separate : Separate backends keeps) {shared : Shared}
    {decoded : List (List (List String))} {turns : List (List String)}
    (follows : Follows backends instances instances shared decoded turns) (distinct : (instances.map Prod.fst).Nodup)
    (apart : ∀ entry ∈ instances, ¬ keeps entry.2) (turnIndex : Nat) (results : List String) :
    checkTurns backends turnIndex results instances instances shared decoded turns = .ok .valid := by
  induction turns generalizing instances decoded turnIndex results with
  | nil => rfl
  | cons references turns ih =>
    cases follows with
    | @turn _ _ after _ shared' _ _ _ inserts rest =>
      obtain ⟨unchanged, ended, model, reference, found, sub⟩ := inserts.executed separate apart
      subst unchanged
      have names : after.map Prod.fst = instances.map Prod.fst := by
        have kept : (executeWith backends (buildMethodMapping backends
          (instances.map Prod.fst)) references instances
            shared').2.1.map Prod.fst = instances.map Prod.fst :=
              executeWith_names _ references instances shared'
        rwa [reference] at kept
      have steps : executeSteps backends (decoded.headD []) instances shared' =
          ((executeWith backends (buildMethodMapping backends (instances.map Prod.fst))
            (decoded.headD []).flatten instances
            shared').1, after, shared') := by
        rw [executeSteps_flatten, ← model]
      have calls : executeCalls backends references instances shared' =
          ((executeWith backends (buildMethodMapping backends
            (instances.map Prod.fst)) references instances shared').1, after,
            shared') := by
        rw [executeCalls, ← reference]
      rw [calls] at rest
      have next := ih rest (names ▸ distinct) ended (turnIndex + 1)
        (results ++ (executeWith backends (buildMethodMapping backends (instances.map Prod.fst))
          (decoded.headD []).flatten
          instances shared').1)
      have answered : ¬ (references ≠ [] ∧ isEmptyExecuteResponse (decoded.headD []) = true) := by
        rintro ⟨some, empty⟩
        rw [isEmpty_flatten empty] at sub
        exact some (sublist_nil.mp sub)
      have contained := missingItems_subperm (found.subperm.trans (sublist_append_right results _).subperm)
      have checked : stateChecker backends shared' after after = .ok none :=
        stateChecker_same shared' (names ▸ distinct) (List.Subset.refl after)
      simp only [checkTurns, steps, calls, if_neg answered, checked, contained]
      by_cases none : references = []
      · rw [if_pos none]
        exact next
      · rw [if_neg none]
        exact next

/-! ### Instances -/

omit [DecidableEq Value] in
theorem makeInstances_ok (separate : Separate backends keeps)
    (initialConfig : Option (List (String × Config))) {longContext : Bool} {involvedClasses : List String}
    (supported : ∀ className ∈ involvedClasses, className ∈ classMapping)
    (references : longContext = false ∨ "TravelAPI" ∉ involvedClasses)
    (distinct : (instances.map Prod.fst).Nodup) (apart : ∀ entry ∈ instances, ¬ keeps entry.2) :
    ∃ made, makeInstances backends initialConfig longContext involvedClasses instances = .ok made ∧
      (made.map Prod.fst).Nodup ∧ ∀ entry ∈ made, ¬ keeps entry.2 := by
  induction involvedClasses generalizing instances with
  | nil => exact ⟨instances, rfl, distinct, apart⟩
  | cons className involvedClasses ih =>
    have elsewhere : className ≠ "TravelAPI" ∨ longContext = false :=
      references.symm.imp (fun absent same => absent (same ▸ mem_cons_self)) id
    rw [makeInstances, if_pos (supported className mem_cons_self)]
    refine ih (fun other member => supported other (mem_cons_of_mem _ member))
      (references.imp id (fun absent member => absent (mem_cons_of_mem _ member)))
        (Indexing.insert_distinct distinct) ?_
    intro entry member
    rcases Indexing.mem_insert member with rfl | before
    · dsimp only
      split
      · exact separate.created className
      · exact separate.loaded className _ longContext elsewhere
    · exact apart entry before

/-- The states that arise when calls are executed on the instances of the model and on those of the ground truth, in any
order. -/
inductive Reaches (backends : Backends Config Own Shared Value) (start : Instances Own) (initial : Shared) :
    Instances Own → Instances Own → Shared → Prop where
  | start : Reaches backends start initial start start initial
  | model {model groundTruth : Instances Own} {shared : Shared}
    (before : Reaches backends start initial model groundTruth shared)
      (methodMapping : List (String × String)) (call : String) :
      Reaches backends start initial (executeCall backends methodMapping call model shared).2.1 groundTruth
        (executeCall backends methodMapping call model shared).2.2
  | groundTruth {model groundTruth : Instances Own} {shared : Shared}
      (before : Reaches backends start initial model groundTruth shared)
        (methodMapping : List (String × String)) (call : String) :
      Reaches backends start initial model (executeCall backends methodMapping call groundTruth shared).2.1
        (executeCall backends methodMapping call groundTruth shared).2.2

omit [DecidableEq Value] in
theorem Reaches.apart (separate : Separate backends keeps) {start model groundTruth : Instances Own}
    {initial shared : Shared} (reaches : Reaches backends start initial model groundTruth shared)
    (apart : ∀ entry ∈ start, ¬ keeps entry.2) :
    (∀ entry ∈ model, ¬ keeps entry.2) ∧ ∀ entry ∈ groundTruth, ¬ keeps entry.2 := by
  induction reaches with
  | start => exact ⟨apart, apart⟩
  | model _ methodMapping call ih => exact ⟨(executeCall_separate separate ih.1 methodMapping call _).2, ih.2⟩
  | groundTruth _ methodMapping call ih => exact ⟨ih.1,
    (executeCall_separate separate ih.2 methodMapping call _).2⟩

/-- `TravelAPI` as far as it is used here: the token, the cards of the module that are kept, and the bookings with their card and
their cost. -/
structure Travel where
  accessToken : String
  creditCardList : List String
  bookingRecord : List (String × String × Nat)

/-- The balances of `CREDIT_CARD_EXTENSION` -/
abbrev Balances := List (String × Nat)

namespace Travel

def cancelBooking (travel : Travel) (accessToken bookingId : String) (balances : Balances) :
    Except String String × Travel × Balances :=
  if accessToken ≠ travel.accessToken then (.ok "\x7b\"cancel_status\": false, \"error\": \"Invalid access token\"\x7d", travel, balances)
  else
    match Dictionary.get travel.bookingRecord bookingId with
    | none => (.ok "\x7b\"cancel_status\": false, \"error\": \"Booking not found\"\x7d", travel, balances)
    | some (cardId, travelCost) =>
      if cardId ∈ travel.creditCardList then
        (.ok "\x7b\"cancel_status\": true\x7d",
          { travel with bookingRecord := travel.bookingRecord.filter (fun entry => entry.1 ≠ bookingId) },
          balances.map (fun entry => if entry.1 = cardId then (cardId, entry.2 + travelCost) else entry))
      else (.error cardId, travel, balances)

def getCreditCardBalance (travel : Travel) (accessToken cardId : String) (balances : Balances) :
    Except String String :=
  if accessToken ≠ travel.accessToken then .ok "\x7b\"error\": \"Invalid access token\"\x7d"
  else if cardId ∈ travel.creditCardList then
    .ok ("\x7b\"card_balance\": " ++ toString ((Dictionary.get balances cardId).getD 0) ++ ".0\x7d")
  else .ok "\x7b\"error\": \"Card not registered.\"\x7d"

end Travel

def cancelCall : String := "cancel_booking(access_token='abc', booking_id='booking_901')"

def balanceCall : String := "get_credit_card_balance(access_token='abc', card_id='1234567812345678')"

/-- The two calls, with the class before the name. -/
def evalTravel (processed : String) (instances : Instances Travel) (balances : Balances) :
    Except String String × Instances Travel × Balances :=
  match Dictionary.get instances "TravelAPI" with
  | none => (.error "name 'TravelAPI' is not defined", instances, balances)
  | some travel =>
    if processed = "TravelAPI." ++ cancelCall then
      let cancelled := travel.cancelBooking "abc" "booking_901" balances
      (cancelled.1, instances.map (fun entry => (entry.1, if entry.1 =
        "TravelAPI" then cancelled.2.1 else entry.2)), cancelled.2.2)
    else if processed = "TravelAPI." ++ balanceCall then
      (travel.getCreditCardBalance "abc" "1234567812345678" balances, instances, balances)
    else (.error "invalid syntax", instances, balances)

theorem evalTravel_names (processed : String) (instances : Instances Travel) (balances : Balances) :
    (evalTravel processed instances balances).2.1.map Prod.fst = instances.map Prod.fst := by
  rw [evalTravel]
  split
  · rfl
  · split
    · rw [map_map]
      rfl
    · split
      · rfl
      · rfl

def travelAttributes : List String := ["access_token", "credit_card_list", "booking_record"]

def travelAttr (travel : Travel) (balances : Balances) (name : String) : Option (List (String × Nat)) :=
  if name = "access_token" then some [(travel.accessToken, 0)]
  else if name = "credit_card_list" then some
    (travel.creditCardList.map (fun cardId => (cardId, (Dictionary.get balances cardId).getD 0)))
  else if name = "booking_record" then some (travel.bookingRecord.map (fun entry => (entry.1, entry.2.2)))
  else none

theorem travelAttr_isSome (travel : Travel) (balances : Balances) :
    ∀ name ∈ travelAttributes, (travelAttr travel balances name).isSome := by
  intro name member
  simp only [travelAttributes, mem_cons, not_mem_nil, or_false] at member
  rcases member with rfl | rfl | rfl
  · rfl
  · rfl
  · rfl

/-- A configuration is the access token; in a long context a card and a booking of the module are added. -/
def travelBackends : Backends String Travel Balances (List (String × Nat)) where
  methods _ := ["cancel_booking", "get_credit_card_balance"]
  create _ := ⟨"", [], []⟩
  loadScenario className _ accessToken longContext :=
    if className = "TravelAPI" ∧ longContext = true then
      ⟨accessToken, ["1234567812345678"], [("booking_901", "1234567812345678", 400)]⟩
    else ⟨accessToken, [], []⟩
  emptyConfig := ""
  eval := evalTravel
  keeps_names := evalTravel_names
  vars _ := travelAttributes
  getattr := travelAttr
  has_vars := travelAttr_isSome
  isWord c := c.isAlphanum || c = '_'
  isSpace c := c = ' '

theorem cancelBooking_separate {travel : Travel} (none : travel.creditCardList = []) (accessToken bookingId : String)
    (balances : Balances) : (travel.cancelBooking accessToken bookingId balances).2 = (travel, balances) := by
  rw [Travel.cancelBooking]
  split
  · rfl
  · split
    · rfl
    · rw [none, if_neg not_mem_nil]

def keepsCards (travel : Travel) : Prop := travel.creditCardList ≠ []

theorem travel_separate : Separate travelBackends keepsCards := by
  refine ⟨fun _ kept => kept rfl, ?_, ?_⟩
  · intro className config longContext elsewhere kept
    have short : ¬ (className = "TravelAPI" ∧ longContext = true) := by
      rintro ⟨travel, long⟩
      rcases elsewhere with other | short
      · exact other travel
      · rw [long] at short
        cases short
    simp only [travelBackends, if_neg short] at kept
    exact kept rfl
  · intro processed instances balances apart
    simp only [travelBackends, evalTravel]
    split
    · exact ⟨rfl, apart⟩
    · next travel found =>
      have none : travel.creditCardList = [] := by
        by_contra some
        exact apart _ (Dictionary.get_some_mem found) some
      split
      · rw [cancelBooking_separate none]
        refine ⟨rfl, fun entry member => ?_⟩
        obtain ⟨before, listed, rfl⟩ := mem_map.mp member
        dsimp only
        split
        · exact fun kept => kept none
        · exact apart before listed
      · split
        · exact ⟨rfl, apart⟩
        · exact ⟨rfl, apart⟩

def extension : Balances := [("1234567812345678", 5000)]

end LLMFusion.BfclMultiturn
