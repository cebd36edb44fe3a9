import Mathlib.Data.List.Infix

/-! Regular expressions that are matched by backtracking, and the matches that are found one behind
the other in a text. A pattern has its matches at the beginning of a text in the order in which they
are tried, and the first one is taken. Only single characters are repeated. -/

namespace Regex
open List

universe u
variable {α : Type u}

inductive Greed where
  | greedy
  /-- `*?` -/
  | reluctant
  deriving DecidableEq, Repr

inductive Pattern (α : Type u) where
  | literal (word : List α)
  | one (allowed : α → Bool)
  | many (greed : Greed) (allowed : α → Bool)
  /-- `$`, which is also right before a last newline -/
  | final (newline : α)
  | capture (group : Nat) (body : Pattern α)
  | seq (first second : Pattern α)
  | alt (first second : Pattern α)

structure Match (α : Type u) where
  taken : List α
  rest : List α
  groups : List (Nat × List α)
  deriving DecidableEq, Repr

def Match.andThen (first second : Match α) : Match α :=
  ⟨first.taken ++ second.taken, second.rest, first.groups ++ second.groups⟩

/-- The ways to split allowed characters off, from the shortest. -/
def spans (allowed : α → Bool) : List α → List (List α × List α)
  | [] => [([], [])]
  | c :: text => ([], c :: text) ::
      if allowed c then (spans allowed text).map (fun split => (c :: split.1, split.2)) else []

theorem spans_cons (allowed : α → Bool) (c : α) (text : List α) :
    spans allowed (c :: text) = ([], c :: text) ::
      if allowed c then (spans allowed text).map (fun split => (c :: split.1, split.2)) else [] := rfl

def Pattern.run [DecidableEq α] : Pattern α → List α → List (Match α)
  | literal word, text => if word <+: text then [⟨word, text.drop word.length, []⟩] else []
  | one _, [] => []
  | one allowed, c :: text => if allowed c then [⟨[c], text, []⟩] else []
  | many greed allowed, text =>
    (if greed = .greedy then (spans allowed text).reverse else spans allowed text).map
      (fun split => ⟨split.1, split.2, []⟩)
  | final newline, text => if text = [] ∨ text = [newline] then [⟨[], text, []⟩] else []
  | capture group body, text => (body.run text).map (fun found => { found with groups := (group, found.taken) :: found.groups })
  | seq first second, text => (first.run text).flatMap (fun found => (second.run found.rest).map found.andThen)
  | alt first second, text => first.run text ++ second.run text

/-- The matches behind the characters that are skipped, none over another. -/
def Pattern.findFrom [DecidableEq α] (pattern : Pattern α) : Nat → List α → List (Match α)
  | 0, [] => (pattern.run []).head?.toList
  | _ + 1, [] => []
  | skip + 1, _ :: text => findFrom pattern skip text
  | 0, c :: text =>
    (pattern.run (c :: text)).head?.elim (findFrom pattern 0 text)
      (fun found => found :: findFrom pattern (found.taken.length - 1) text)

/-- For patterns that take at least one character. -/
def Pattern.findAll [DecidableEq α] (pattern : Pattern α) (text : List α) : List (Match α) := pattern.findFrom 0 text

/-- The groups of the matches, as `findall` and `finditer` give them. -/
def Pattern.findGroups [DecidableEq α] (pattern : Pattern α) (text : List α) : List (List (Nat × List α)) :=
  (pattern.findAll text).map Match.groups

section Equations
variable [DecidableEq α] (text : List α)

theorem literal_run (word : List α) :
    (Pattern.literal word).run text = if word <+: text then [⟨word, text.drop word.length, []⟩] else [] := rfl

theorem one_run (allowed : α → Bool) (c : α) :
    (Pattern.one allowed).run (c :: text) = if allowed c then [⟨[c], text, []⟩] else [] := rfl

theorem many_run (greed : Greed) (allowed : α → Bool) :
    (Pattern.many greed allowed).run text =
      (if greed = .greedy then (spans allowed text).reverse else spans allowed text).map
        (fun split => ⟨split.1, split.2, []⟩) := rfl

theorem final_run (newline : α) :
    (Pattern.final newline).run text = if text = [] ∨ text = [newline] then [⟨[], text, []⟩] else [] := rfl

theorem capture_run (group : Nat) (body : Pattern α) : (Pattern.capture group body).run text =
      (body.run text).map (fun found => { found with groups := (group, found.taken) :: found.groups }) := rfl

theorem seq_run (first second : Pattern α) :
    (first.seq second).run text = (first.run text).flatMap (fun found => (second.run found.rest).map found.andThen) := rfl

theorem alt_run (first second : Pattern α) : (first.alt second).run text = first.run text ++ second.run text := rfl

theorem findFrom_zero (pattern : Pattern α) (c : α) : pattern.findFrom 0 (c :: text) =
      (pattern.run (c :: text)).head?.elim (pattern.findFrom 0 text)
        (fun found => found :: pattern.findFrom (found.taken.length - 1) text) := rfl

theorem findFrom_succ (pattern : Pattern α) (skip : Nat) (c : α) :
    pattern.findFrom (skip + 1) (c :: text) = pattern.findFrom skip text := rfl

end Equations

/-! ### What is tried first -/

variable {allowed : α → Bool}

theorem spans_split {front : List α} (all : ∀ c ∈ front, allowed c = true) (text : List α) :
    ∃ before after, spans allowed (front ++ text) = before ++ (front, text) :: after ∧
      ∀ split ∈ before, ∃ left, front = split.1 ++ left ∧ left ≠ [] ∧ split.2 = left ++ text := by
  induction front with
  | nil =>
    cases text with
    | nil => exact ⟨[], [], rfl, by simp⟩
    | cons c text => exact ⟨[], _, rfl, by simp⟩
  | cons c front ih =>
    obtain ⟨before, after, splits, shorter⟩ := ih (fun other member => all other (mem_cons_of_mem c member))
    refine ⟨([], c :: front ++ text) :: before.map (fun split => (c :: split.1, split.2)),
      after.map (fun split => (c :: split.1, split.2)), ?_, ?_⟩
    · simp [spans_cons, all c mem_cons_self, splits]
    · intro split member
      cases mem_cons.mp member with
      | inl first =>
        subst first
        exact ⟨c :: front, rfl, cons_ne_nil _ _, rfl⟩
      | inr later =>
        obtain ⟨split, earlier, rfl⟩ := mem_map.mp later
        obtain ⟨left, joined, some, rest⟩ := shorter split earlier
        exact ⟨left, congrArg (c :: ·) joined, some, rest⟩

theorem spans_longest (allowed : α → Bool) (text : List α) :
    (spans allowed text).getLast? = some (text.takeWhile allowed, text.dropWhile allowed) := by
  induction text with
  | nil => rfl
  | cons c text ih =>
    rw [spans_cons]
    by_cases here : allowed c = true
    · rw [if_pos here, getLast?_cons, getLast?_map, ih, takeWhile_cons_of_pos here, dropWhile_cons_of_pos here]
      rfl
    · rw [if_neg here, takeWhile_cons_of_neg here, dropWhile_cons_of_neg here]
      rfl

theorem spans_sound {text : List α} {split : List α × List α} (member : split ∈ spans allowed text) :
    text = split.1 ++ split.2 ∧ ∀ c ∈ split.1, allowed c = true := by
  induction text generalizing split with
  | nil =>
    cases mem_singleton.mp member
    exact ⟨rfl, by simp⟩
  | cons c text ih =>
    rw [spans_cons] at member
    cases mem_cons.mp member with
    | inl first =>
      subst first
      exact ⟨rfl, by simp⟩
    | inr later =>
      split at later
      · rename_i here
        obtain ⟨split, earlier, rfl⟩ := mem_map.mp later
        obtain ⟨joined, all⟩ := ih earlier
        exact ⟨congrArg (c :: ·) joined, forall_mem_cons.mpr ⟨here, all⟩⟩
      · cases later

theorem spans_shorter {text : List α} {split : List α × List α} {before after : List (List α × List α)}
    (splits : spans allowed text = before ++ split :: after) {left right : List α} (joined : split.1 = left ++ right)
    (some : right ≠ []) : (left, right ++ split.2) ∈ before := by
  induction text generalizing before after split left with
  | nil =>
    cases before with
    | nil =>
      cases splits
      exact absurd (append_eq_nil_iff.mp joined.symm).2 some
    | cons first before =>
      have lengths := congrArg length splits
      simp [spans] at lengths
  | cons c text ih =>
    rw [spans_cons] at splits
    cases before with
    | nil =>
      cases splits
      exact absurd (append_eq_nil_iff.mp joined.symm).2 some
    | cons first before =>
      obtain ⟨rfl, later⟩ := cons.inj splits
      split at later
      · obtain ⟨before', after', splits', rfl, behind⟩ := map_eq_append_iff.mp later
        obtain ⟨split', after'', rfl, rfl, _⟩ := map_eq_cons_iff.mp behind
        cases left with
        | nil =>
          have member : split' ∈ spans allowed text := splits' ▸ mem_append_right _ mem_cons_self
          have whole := (spans_sound member).1
          refine mem_cons.mpr (Or.inl ?_)
          rw [nil_append] at joined
          rw [← joined, whole]
          rfl
        | cons c' left =>
          obtain ⟨rfl, inside⟩ := cons.inj joined
          exact mem_cons_of_mem _ (mem_map.mpr ⟨(left, right ++ split'.2), ih splits' inside, rfl⟩)
      · cases before <;> cases later

/-! ### Texts without a word -/

/-- The word does not occur in the text. -/
def Free (word text : List α) : Prop := ¬ word <:+: text

instance [DecidableEq α] (word text : List α) : Decidable (Free word text) := inferInstanceAs (Decidable (¬ word <:+: text))

variable {word front text : List α}

/-- A word does not lie across two texts when it does not go on with the first character of the second. -/
theorem Free.append_head (free : Free word front) (free' : Free word text) (apart : ∀ c ∈ text.head?, c ∉ word.tail) :
    Free word (front ++ text) := by
  intro occurs
  obtain here | here | ⟨left, right, some, some', rfl, _, later⟩ := infix_append_iff_ne_nil.mp occurs
  · exact free here
  · exact free' here
  · obtain ⟨rest, rfl⟩ := later
    cases right with
    | nil => exact some' rfl
    | cons c right =>
      apply apart c rfl
      rw [tail_append_of_ne_nil some]
      exact mem_append_right _ mem_cons_self

theorem Free.append_last (free : Free word front) (free' : Free word text) (apart : ∀ c ∈ front.getLast?, c ∉ word.dropLast) :
    Free word (front ++ text) := by
  intro occurs
  obtain here | here | ⟨left, right, some, some', rfl, ends, _⟩ := infix_append_iff_ne_nil.mp occurs
  · exact free here
  · exact free' here
  · obtain ⟨before, rfl⟩ := ends
    apply apart (left.getLast some)
    · rw [getLast?_append_of_ne_nil _ some, getLast?_eq_getLast_of_ne_nil some]
      rfl
    · rw [dropLast_append_of_ne_nil some']
      exact mem_append_left _ (getLast_mem some)

theorem Free.not_earlier {c : α} {tail left : List α} (free : Free (c :: tail) left) (fresh : c ∉ tail) (some : left ≠ [])
    (rest : List α) : ¬ c :: tail <+: left ++ (c :: tail ++ rest) := by
  intro occurs
  cases prefix_or_prefix_of_prefix occurs (prefix_append left _) with
  | inl inside => exact free inside.isInfix
  | inr across =>
    obtain ⟨more, joined⟩ := across
    rw [← joined, prefix_append_right_inj] at occurs
    cases left with
    | nil => exact some rfl
    | cons c' left =>
      obtain ⟨rfl, rfl⟩ := cons.inj joined
      cases more with
      | nil => exact free (by simp)
      | cons other more =>
        have same := List.IsPrefix.head occurs (cons_ne_nil _ _)
        exact fresh (by simp_all)

theorem Free.inside {left : List α} (free : Free word front) (inside : left <:+: front) : Free word left :=
  fun occurs => free (occurs.trans inside)

theorem Free.suffix {left : List α} (free : Free word front) (suffix : left <:+ front) : Free word left :=
  fun occurs => free (occurs.trans suffix.isInfix)

variable [DecidableEq α] {rest : List α} {found : Match α} {pattern first second : Pattern α}

theorem run_sound (member : found ∈ pattern.run text) : text = found.taken ++ found.rest := by
  induction pattern generalizing text found with
  | literal word =>
    rw [literal_run] at member
    split at member
    · rename_i here
      obtain ⟨rest, rfl⟩ := here
      cases mem_singleton.mp member
      simp
    · cases member
  | one allowed =>
    cases text with
    | nil => cases member
    | cons c text =>
      rw [one_run] at member
      split at member
      · cases mem_singleton.mp member
        rfl
      · cases member
  | many greed allowed =>
    rw [many_run] at member
    obtain ⟨split, among, rfl⟩ := mem_map.mp member
    split at among
    · exact (spans_sound (mem_reverse.mp among)).1
    · exact (spans_sound among).1
  | final newline =>
    rw [final_run] at member
    split at member
    · cases mem_singleton.mp member
      rfl
    · cases member
  | capture group body ih =>
    obtain ⟨found, earlier, rfl⟩ := mem_map.mp member
    have joined := ih earlier
    exact joined
  | seq first second ih ih' =>
    obtain ⟨earlier, before, member⟩ := mem_flatMap.mp member
    obtain ⟨later, behind, rfl⟩ := mem_map.mp member
    rw [ih before, ih' behind, Match.andThen, append_assoc]
  | alt first second ih ih' =>
    cases mem_append.mp member with
    | inl member => exact ih member
    | inr member => exact ih' member

/-! ### First matches -/

theorem run_literal (word text : List α) : (Pattern.literal word).run (word ++ text) = [⟨word, text, []⟩] := by
  rw [literal_run, if_pos (prefix_append word text), drop_left]

theorem run_literal_seq (word text : List α) (pattern : Pattern α) :
    ((Pattern.literal word).seq pattern).run (word ++ text) = (pattern.run text).map (Match.andThen ⟨word, text, []⟩) := by
  rw [seq_run, run_literal, flatMap_singleton]

theorem run_literal_missed {word : List α} (missed : ¬ word <+: text) (pattern : Pattern α) :
    ((Pattern.literal word).seq pattern).run text = [] := by
  rw [seq_run, literal_run, if_neg missed, flatMap_nil]

theorem first_seq {before after : List (Match α)} {found' : Match α} (tried : first.run text = before ++ found :: after)
    (failed : ∀ earlier ∈ before, second.run earlier.rest = []) (here : (second.run found.rest).head? = some found') :
    ((first.seq second).run text).head? = some (found.andThen found') := by
  have none : before.flatMap (fun earlier => (second.run earlier.rest).map earlier.andThen) = [] := by
    rw [flatMap_eq_nil_iff]
    intro earlier member
    rw [failed earlier member, map_nil]
  rw [seq_run, tried, flatMap_append, none, nil_append, flatMap_cons, head?_append, head?_map,
    here]
  rfl

theorem first_seq_first {found' : Match α} (tried : (first.run text).head? = some found)
    (here : (second.run found.rest).head? = some found') :
    ((first.seq second).run text).head? = some (found.andThen found') := by
  obtain ⟨after, tried⟩ := head?_eq_some_iff.mp tried
  exact first_seq (tried.trans (nil_append _).symm) (by simp) here

theorem first_alt_left (here : (first.run text).head? = some found) : ((first.alt second).run text).head? = some found := by
  rw [alt_run, head?_append, here]
  rfl

theorem first_alt_right (failed : first.run text = []) : (first.alt second).run text = second.run text := by
  rw [alt_run, failed, nil_append]

theorem first_literal_seq (word : List α) (here : (pattern.run text).head? = some found) :
    (((Pattern.literal word).seq pattern).run (word ++ text)).head? = some ⟨word ++ found.taken, found.rest, found.groups⟩ := by
  rw [run_literal_seq, head?_map, here]
  rfl

theorem first_capture (group : Nat) (here : (pattern.run text).head? = some found) :
    ((pattern.capture group).run text).head? = some { found with groups := (group, found.taken) :: found.groups } := by
  rw [capture_run, head?_map, here]
  rfl

theorem first_greedy (allowed : α → Bool) (text : List α) :
    ((Pattern.many .greedy allowed).run text).head? = some ⟨text.takeWhile allowed, text.dropWhile allowed, []⟩ := by
  rw [many_run, if_pos rfl, head?_map, head?_reverse, spans_longest]
  rfl

theorem first_greedy_ends (all : ∀ c ∈ front, allowed c = true) (ends : ∀ c ∈ rest.head?, allowed c = false) :
    ((Pattern.many .greedy allowed).run (front ++ rest)).head? = some ⟨front, rest, []⟩ := by
  have none : rest.takeWhile allowed = [] ∧ rest.dropWhile allowed = rest := by
    cases rest with
    | nil => exact ⟨rfl, rfl⟩
    | cons c rest =>
      have stops : ¬ allowed c = true := by simp [ends c rfl]
      exact ⟨takeWhile_cons_of_neg stops, dropWhile_cons_of_neg stops⟩
  rw [first_greedy, takeWhile_append_of_pos all, dropWhile_append_of_pos all, none.1, none.2, append_nil]

/-- `+` -/
def Pattern.plus (allowed : α → Bool) : Pattern α := (one allowed).seq (many .greedy allowed)

theorem first_plus (some : front ≠ []) (all : ∀ c ∈ front, allowed c = true)
    (ends : ∀ c ∈ rest.head?, allowed c = false) :
    ((Pattern.plus allowed).run (front ++ rest)).head? = Option.some ⟨front, rest, []⟩ := by
  cases front with
  | nil => exact absurd rfl some
  | cons c front =>
    obtain ⟨here, all⟩ := forall_mem_cons.mp all
    have first : ((Pattern.one allowed).run (c :: front ++ rest)).head? = Option.some ⟨[c], front ++ rest, []⟩ := by
      rw [cons_append, one_run, if_pos here]
      rfl
    exact first_seq_first first (first_greedy_ends all ends)

theorem first_reluctant (group : Nat) {c : α} {tail : List α} (all : ∀ c ∈ front, allowed c = true)
    (free : Free (c :: tail) front) (fresh : c ∉ tail) (rest : List α) :
    ((((Pattern.many .reluctant allowed).capture group).seq (.literal (c :: tail))).run (front ++ (c :: tail ++ rest))).head? =
      some ⟨front ++ c :: tail, rest, [(group, front)]⟩ := by
  obtain ⟨before, after, splits, earlier⟩ := spans_split all (c :: tail ++ rest)
  have tried : ((Pattern.many .reluctant allowed).capture group).run (front ++ (c :: tail ++ rest)) =
      before.map (fun split => ⟨split.1, split.2, [(group, split.1)]⟩) ++ ⟨front, c :: tail ++ rest, [(group, front)]⟩ ::
        after.map (fun split => ⟨split.1, split.2, [(group, split.1)]⟩) := by
    rw [capture_run, many_run, if_neg (by decide), splits, map_map, map_append, map_cons]
    rfl
  have first : ((Pattern.literal (c :: tail)).run (c :: tail ++ rest)).head? = some ⟨c :: tail, rest, []⟩ := by
    rw [run_literal]
    rfl
  refine first_seq tried ?_ first
  intro found member
  obtain ⟨split, among, rfl⟩ := mem_map.mp member
  obtain ⟨left, joined, some, later⟩ := earlier split among
  have missed := Free.not_earlier (free.suffix ⟨split.1, joined.symm⟩) fresh some rest
  rw [literal_run, later, if_neg missed]

/-! ### What a match is made of -/

theorem mem_literal {word : List α} (member : found ∈ (Pattern.literal word).run text) :
    text = word ++ found.rest ∧ found.groups = [] := by
  rw [literal_run] at member
  split at member
  · rename_i here
    obtain ⟨rest, rfl⟩ := here
    cases mem_singleton.mp member
    exact ⟨by rw [drop_left], rfl⟩
  · cases member

theorem mem_final {newline : α} (member : found ∈ (Pattern.final newline).run text) : found.groups = [] := by
  rw [final_run] at member
  split at member
  · cases mem_singleton.mp member
    rfl
  · cases member

theorem mem_capture {group : Nat} (member : found ∈ (pattern.capture group).run text) :
    ∃ found' ∈ pattern.run text, text = found'.taken ++ found.rest ∧ found.groups = (group, found'.taken) :: found'.groups := by
  obtain ⟨found', earlier, rfl⟩ := mem_map.mp member
  exact ⟨found', earlier, run_sound earlier, rfl⟩

theorem mem_many {greed : Greed} (member : found ∈ (Pattern.many greed allowed).run text) :
    found.groups = [] ∧ ∀ c ∈ found.taken, allowed c = true := by
  rw [many_run] at member
  obtain ⟨split, among, rfl⟩ := mem_map.mp member
  split at among
  · exact ⟨rfl, (spans_sound (mem_reverse.mp among)).2⟩
  · exact ⟨rfl, (spans_sound among).2⟩

theorem mem_plus (member : found ∈ (Pattern.plus allowed).run text) : found.groups = [] ∧ found.taken ≠ [] := by
  obtain ⟨first, before, member⟩ := mem_flatMap.mp member
  obtain ⟨later, behind, rfl⟩ := mem_map.mp member
  cases text with
  | nil => cases before
  | cons c text =>
    rw [one_run] at before
    split at before
    · cases mem_singleton.mp before
      exact ⟨(mem_many behind).1, by simp [Match.andThen]⟩
    · cases before

/-- A first match of two patterns is a match of the first one, before a first match of the second;
what is tried before has none behind it. -/
theorem first_of_seq_tried (here : ((first.seq second).run text).head? = some found) :
    ∃ before found' after found'', first.run text = before ++ found' :: after ∧
      (∀ earlier ∈ before, second.run earlier.rest = []) ∧ (second.run found'.rest).head? = some found'' ∧
      found.groups = found'.groups ++ found''.groups := by
  rw [seq_run] at here
  generalize first.run text = tries at here ⊢
  induction tries with
  | nil => cases here
  | cons found' later ih =>
    rw [flatMap_cons, head?_append, head?_map] at here
    cases next : (second.run found'.rest).head? with
    | some found'' =>
      rw [next] at here
      cases here
      exact ⟨[], found', later, found'', rfl, by simp, next, rfl⟩
    | none =>
      rw [next] at here
      obtain ⟨before, other, after, found'', rfl, failed, here, groups⟩ := ih here
      refine ⟨found' :: before, other, after, found'', rfl, ?_, here, groups⟩
      exact forall_mem_cons.mpr ⟨head?_eq_none_iff.mp next, failed⟩

theorem first_of_seq (here : ((first.seq second).run text).head? = some found) :
    ∃ found' ∈ first.run text, ∃ found'', (second.run found'.rest).head? = some found'' ∧
      found.groups = found'.groups ++ found''.groups := by
  obtain ⟨before, found', after, found'', tried, _, here, groups⟩ := first_of_seq_tried here
  exact ⟨found', tried ▸ mem_append_right _ mem_cons_self, found'', here, groups⟩

theorem first_of_literal_seq {word : List α} (here : (((Pattern.literal word).seq pattern).run text).head? = some found) :
    ∃ later found', text = word ++ later ∧ (pattern.run later).head? = some found' ∧ found.groups = found'.groups := by
  obtain ⟨opened, among, found', next, groups⟩ := first_of_seq here
  obtain ⟨joined, none⟩ := mem_literal among
  exact ⟨opened.rest, found', joined, next, by rw [groups, none, nil_append]⟩

theorem first_of_alt (here : ((first.alt second).run text).head? = some found) :
    (first.run text).head? = some found ∨ (first.run text = [] ∧ (second.run text).head? = some found) := by
  cases tried : first.run text with
  | nil => exact Or.inr ⟨rfl, first_alt_right tried ▸ here⟩
  | cons found' later =>
    rw [alt_run, tried] at here
    exact Or.inl here

theorem reluctant_free {group : Nat} {word : List α} (some : word ≠ [])
    (here : ((((Pattern.many .reluctant allowed).capture group).seq (.literal word)).run text).head? = Option.some found) :
    ∃ body rest, found.groups = [(group, body)] ∧ text = body ++ (word ++ rest) ∧ Free word body := by
  obtain ⟨before, found', after, found'', tried, failed, here, groups⟩ := first_of_seq_tried here
  rw [capture_run, many_run, if_neg (by decide), map_map] at tried
  obtain ⟨before', after', splits, rfl, later⟩ := map_eq_append_iff.mp tried
  obtain ⟨split, after'', rfl, rfl, _⟩ := map_eq_cons_iff.mp later
  obtain ⟨closed, none⟩ := mem_literal (mem_of_mem_head? here)
  have member : split ∈ spans allowed text := splits ▸ mem_append_right _ mem_cons_self
  have joined := (spans_sound member).1
  refine ⟨split.1, found''.rest, by rw [groups, none]; rfl, joined.trans (congrArg (split.1 ++ ·) closed), ?_⟩
  intro occurs
  obtain ⟨left, right, inside⟩ := occurs
  have earlier := spans_shorter splits (inside.symm.trans (append_assoc _ _ _)) (append_ne_nil_of_left_ne_nil some right)
  have missed := failed _ (mem_map.mpr ⟨_, earlier, rfl⟩)
  have opened : word <+: word ++ right ++ split.2 := ⟨right ++ split.2, (append_assoc _ _ _).symm⟩
  simp only [Function.comp_apply, literal_run, opened, if_true] at missed
  cases missed

theorem reluctant_none {group : Nat} {word : List α}
    (failed : (((Pattern.many .reluctant (fun _ => true)).capture group).seq (.literal word)).run text = []) : Free word text := by
  intro occurs
  obtain ⟨left, right, rfl⟩ := occurs
  have all : ∀ c ∈ left, (fun _ => true) c = true := fun _ _ => rfl
  obtain ⟨before, after, splits, _⟩ := spans_split all (word ++ right)
  rw [seq_run, flatMap_eq_nil_iff] at failed
  have member : (⟨left, word ++ right, [(group, left)]⟩ : Match α) ∈
      ((Pattern.many .reluctant (fun _ => true)).capture group).run (left ++ word ++ right) := by
    rw [append_assoc, capture_run, many_run, if_neg (by decide), splits]
    simp
  have missed := failed _ member
  rw [run_literal] at missed
  cases missed

theorem mem_of_first (here : (pattern.run text).head? = some found) : found ∈ pattern.run text :=
  mem_of_mem_head? here

/-! ### Matches one behind the other -/

theorem findFrom_skip (pattern : Pattern α) {skip : Nat} (inside : skip ≤ text.length) :
    pattern.findFrom skip text = pattern.findAll (text.drop skip) := by
  induction text generalizing skip with
  | nil =>
    obtain rfl : skip = 0 := Nat.le_zero.mp inside
    rfl
  | cons c text ih =>
    cases skip with
    | zero => rfl
    | succ skip =>
      rw [findFrom_succ, drop_succ_cons]
      exact ih (Nat.le_of_succ_le_succ inside)

variable {groups : List (Nat × List α)}

theorem findAll_first {word : List α} (some : word ≠ [])
    (here : (pattern.run (word ++ rest)).head? = Option.some ⟨word, rest, groups⟩) :
    pattern.findAll (word ++ rest) = ⟨word, rest, groups⟩ :: pattern.findAll rest := by
  cases word with
  | nil => exact absurd rfl some
  | cons c word =>
    rw [cons_append] at here ⊢
    rw [Pattern.findAll, findFrom_zero, here]
    have later : pattern.findFrom word.length (word ++ rest) = pattern.findAll rest := by
      rw [findFrom_skip pattern (by simp), drop_left]
    exact congrArg (_ :: ·) later

theorem findAll_missed (missed : ∀ c ∈ front, ∀ later, pattern.run (c :: later) = []) (text : List α) :
    pattern.findAll (front ++ text) = pattern.findAll text := by
  induction front with
  | nil => rfl
  | cons c front ih =>
    obtain ⟨here, missed⟩ := forall_mem_cons.mp missed
    rw [cons_append, Pattern.findAll, findFrom_zero, here]
    exact ih missed

theorem findAll_end (missed : pattern.run [] = []) : pattern.findAll [] = [] := by
  have none : (pattern.run []).head?.toList = [] := by rw [missed]; rfl
  exact none

theorem findGroups_first {word : List α} (some : word ≠ [])
    (here : (pattern.run (word ++ rest)).head? = Option.some ⟨word, rest, groups⟩) :
    pattern.findGroups (word ++ rest) = groups :: pattern.findGroups rest := by
  rw [Pattern.findGroups, findAll_first some here]
  rfl

theorem findAll_sound (member : found ∈ pattern.findAll text) :
    ∃ before here, text = before ++ here ∧ (pattern.run here).head? = some found := by
  have anywhere : ∀ skip, found ∈ pattern.findFrom skip text →
      ∃ before here, text = before ++ here ∧ (pattern.run here).head? = some found := by
    clear member
    induction text with
    | nil =>
      intro skip member
      cases skip with
      | zero => exact ⟨[], [], rfl, Option.mem_toList.mp member⟩
      | succ skip => cases member
    | cons c text ih =>
      have later : ∀ skip, found ∈ pattern.findFrom skip text →
          ∃ before here, c :: text = before ++ here ∧ (pattern.run here).head? = some found := by
        intro skip member
        obtain ⟨before, here, rfl, first⟩ := ih skip member
        exact ⟨c :: before, here, rfl, first⟩
      intro skip member
      cases skip with
      | zero =>
        rw [findFrom_zero] at member
        cases first : (pattern.run (c :: text)).head? with
        | none =>
          rw [first] at member
          exact later 0 member
        | some found' =>
          rw [first] at member
          cases mem_cons.mp member with
          | inl same => exact ⟨[], c :: text, rfl, same ▸ first⟩
          | inr member => exact later _ member
      | succ skip => exact later skip member
  exact anywhere 0 member

theorem findGroups_missed (missed : ∀ c ∈ front, ∀ later, pattern.run (c :: later) = []) (text : List α) :
    pattern.findGroups (front ++ text) = pattern.findGroups text := by
  rw [Pattern.findGroups, findAll_missed missed, Pattern.findGroups]

theorem findGroups_end (missed : pattern.run [] = []) : pattern.findGroups [] = [] := by
  rw [Pattern.findGroups, findAll_end missed, map_nil]

theorem findGroups_some {word : List α} (some : word ≠ []) (here : pattern.run (word ++ rest) ≠ []) :
    pattern.findGroups (word ++ rest) ≠ [] := by
  cases word with
  | nil => exact absurd rfl some
  | cons c word =>
    obtain ⟨found, later, tried⟩ := exists_cons_of_ne_nil here
    rw [cons_append] at tried ⊢
    rw [Pattern.findGroups, Pattern.findAll, findFrom_zero, tried]
    exact cons_ne_nil _ _

theorem findGroups_sound (member : groups ∈ pattern.findGroups text) :
    ∃ before here found, text = before ++ here ∧ (pattern.run here).head? = some found ∧ found.groups = groups := by
  obtain ⟨found, among, rfl⟩ := mem_map.mp member
  obtain ⟨before, here, joined, first⟩ := findAll_sound among
  exact ⟨before, here, found, joined, first, rfl⟩

end Regex
