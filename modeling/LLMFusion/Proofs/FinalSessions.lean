import LLMFusion.Proofs.PaddedAdvantages

/-! The final outputs of the sessions of a batch, found in one pass over its keys. -/

namespace LLMFusion.SyncTrainer
open List
open PaddingUtils hiding Failure

/-! ### The highest index of a session -/

theorem recordOutput_distinct {sessions : FinalSessions} (distinct : (sessions.map Prod.fst).Nodup) (entry : Key × Nat) :
    ((recordOutput sessions entry).map Prod.fst).Nodup := by
  induction sessions with
  | nil => exact nodup_singleton _
  | cons first rest ih =>
    obtain ⟨absent, apart⟩ := nodup_cons.mp distinct
    rw [recordOutput]
    split
    · split
      · exact nodup_cons.mpr ⟨absent, apart⟩
      · exact distinct
    · next other =>
      refine nodup_cons.mpr ⟨?_, ih apart⟩
      intro found
      cases (recordOutput_sessions rest entry first.1).mp found with
      | inl old => exact absent old
      | inr new => exact other new

/-- What is recorded of a session is its output with the highest index. -/
structure Recorded (entries : List (Key × Nat)) (session : (String × Nat) × (Nat × Nat)) : Prop where
  output : ∃ entry ∈ entries, outputOf entry = session
  highest : ∀ entry ∈ entries, sessionOf entry.1 = session.1 → entry.1.index ≤ session.2.1

variable {entries : List (Key × Nat)}

theorem Recorded.other {session : (String × Nat) × (Nat × Nat)} {entry : Key × Nat}
    (recorded : Recorded entries session) (lower : sessionOf entry.1 = session.1 → entry.1.index ≤ session.2.1) :
    Recorded (entries ++ [entry]) session := by
  obtain ⟨output, member, same⟩ := recorded.output
  refine ⟨⟨output, mem_append_left _ member, same⟩, ?_⟩
  intro later among
  cases mem_append.mp among with
  | inl before => exact recorded.highest later before
  | inr last => exact mem_singleton.mp last ▸ lower

theorem Recorded.latest {entry : Key × Nat}
    (highest : ∀ earlier ∈ entries, sessionOf earlier.1 = sessionOf entry.1 → earlier.1.index ≤ entry.1.index) :
    Recorded (entries ++ [entry]) (outputOf entry) := by
  refine ⟨⟨entry, mem_append_right _ (mem_singleton_self entry), rfl⟩, ?_⟩
  intro other among same
  cases mem_append.mp among with
  | inl before => exact highest other before same
  | inr last => exact mem_singleton.mp last ▸ le_refl entry.1.index

theorem recordOutput_recorded {sessions : FinalSessions} {entry : Key × Nat}
    (distinct : (sessions.map Prod.fst).Nodup) (recorded : ∀ session ∈ sessions, Recorded entries session)
    (known : sessionOf entry.1 ∉ sessions.map Prod.fst → ∀ earlier ∈ entries, sessionOf earlier.1 ≠ sessionOf entry.1) :
    ∀ session ∈ recordOutput sessions entry, Recorded (entries ++ [entry]) session := by
  induction sessions with
  | nil =>
    intro session member
    rw [recordOutput, mem_singleton] at member
    subst member
    apply Recorded.latest
    intro earlier before same
    exact absurd same (known (not_mem_nil) earlier before)
  | cons first rest ih =>
    obtain ⟨absent, apart⟩ := nodup_cons.mp distinct
    obtain ⟨inFirst, inRest⟩ := forall_mem_cons.mp recorded
    rw [recordOutput]
    split
    · next here =>
      have others : ∀ session ∈ rest, Recorded (entries ++ [entry]) session := by
        intro session member
        refine (inRest session member).other (fun same => ?_)
        rw [here, show (entry.1.uid, entry.1.sessionId) = sessionOf entry.1 from rfl, same] at absent
        exact absurd (mem_map_of_mem member) absent
      split
      · next above =>
        refine forall_mem_cons.mpr ⟨?_, others⟩
        rw [here]
        apply Recorded.latest
        intro earlier before same
        exact (inFirst.highest earlier before (same.trans here.symm)).trans above.le
      · next below => exact forall_mem_cons.mpr ⟨inFirst.other (fun _ => not_lt.mp below), others⟩
    · next elsewhere =>
      refine forall_mem_cons.mpr ⟨inFirst.other (fun same => absurd same.symm elsewhere), ih apart inRest ?_⟩
      intro unknown
      apply known
      intro found
      cases mem_cons.mp found with
      | inl same => exact elsewhere same.symm
      | inr later => exact unknown later

theorem recorded_all (entries : List (Key × Nat)) :
    ((entries.foldl recordOutput []).map Prod.fst).Nodup ∧ ∀ session ∈ entries.foldl recordOutput [], Recorded entries session := by
  induction entries using reverseRecOn with
  | nil => exact ⟨nodup_nil, fun session member => (not_mem_nil member).elim⟩
  | append_singleton entries entry ih =>
    rw [foldl_append]
    refine ⟨recordOutput_distinct ih.1 entry, recordOutput_recorded ih.1 ih.2 ?_⟩
    intro unknown earlier before same
    apply unknown
    rw [recorded_sessions, ← same]
    exact Or.inr (mem_map_of_mem before)

theorem finalSessions_distinct (keys : List Key) : ((finalSessions keys).map Prod.fst).Nodup := (recorded_all _).1

variable {α : Type}

/-! ### Final outputs -/

/-- The rows of a batch that are the last of their session. -/
def finals (rows : List (Key × α)) : List (Key × α) :=
  rows.filter (fun row => ∀ other ∈ rows, sessionOf other.1 = sessionOf row.1 → other.1.index ≤ row.1.index)

variable {rows : List (Key × α)}

theorem mem_finals {row : Key × α} : row ∈ finals rows ↔
      row ∈ rows ∧ ∀ other ∈ rows, sessionOf other.1 = sessionOf row.1 → other.1.index ≤ row.1.index := by
  rw [finals, mem_filter, decide_eq_true_iff]

theorem finals_perm {rows reordered : List (Key × α)} (same : reordered.Perm rows) :
    (finals reordered).Perm (finals rows) := by
  have test : finals rows = rows.filter (fun row =>
      ∀ other ∈ reordered, sessionOf other.1 = sessionOf row.1 → other.1.index ≤ row.1.index) := by
    apply filter_congr
    intro row _
    simp only [same.mem_iff]
  rw [test]
  exact same.filter _

theorem finals_unique (distinct : (rows.map Prod.fst).Nodup)
    {row other : Key × α} (final : row ∈ finals rows) (isOther : other ∈ finals rows)
    (same : sessionOf other.1 = sessionOf row.1) : other = row := by
  obtain ⟨member, highest⟩ := mem_finals.mp final
  obtain ⟨inside, atTop⟩ := mem_finals.mp isOther
  have index := Nat.le_antisymm (highest other inside same) (atTop row member same.symm)
  have session := Prod.mk.inj same
  have keys : other.1 = row.1 := by
    obtain ⟨⟨uid, sessionId, place⟩, _⟩ := other
    obtain ⟨⟨uid', sessionId', place'⟩, _⟩ := row
    obtain ⟨rfl, rfl⟩ := session
    cases index
    rfl
  exact inj_on_of_nodup_map distinct inside member keys

def finalOutputs (rows : List (Key × α)) : List (Key × α) :=
  (finalSessions (rows.map Prod.fst)).filterMap (fun session => rows[session.2.2]?)

theorem finalSessions_row (rows : List (Key × α)) : ∀ session ∈ finalSessions (rows.map Prod.fst),
      ∃ row ∈ finals rows, rows[session.2.2]? = some row ∧ sessionOf row.1 = session.1 := by
  intro session member
  have recorded := (recorded_all (rows.map Prod.fst).zipIdx).2 session member
  obtain ⟨⟨key, place⟩, among, rfl⟩ := recorded.output
  have read : (rows.map Prod.fst)[place]? = some key := mk_mem_zipIdx_iff_getElem?.mp among
  obtain ⟨row, found, rfl⟩ := Option.map_eq_some_iff.mp ((getElem?_map).symm.trans read)
  refine ⟨row, mem_finals.mpr ⟨mem_of_getElem? found, ?_⟩, found, rfl⟩
  intro other inside same
  obtain ⟨at', read'⟩ := getElem?_of_mem inside
  have named : (rows.map Prod.fst)[at']? = some other.1 := by rw [getElem?_map, read']; rfl
  exact recorded.highest (other.1, at') (mk_mem_zipIdx_iff_getElem?.mpr named) same

theorem filterMap_named {ι β γ : Type} {items : List ι} {find : ι → Option β} {name : β → γ} {label : ι → γ}
    (found : ∀ item ∈ items, ∃ result, find item = some result ∧ name result = label item) :
    (items.filterMap find).map name = items.map label := by
  induction items with
  | nil => rfl
  | cons item items ih =>
    obtain ⟨⟨result, here, same⟩, later⟩ := forall_mem_cons.mp found
    rw [filterMap_cons_some here, map_cons, map_cons, same, ih later]

theorem finalOutputs_sessions (rows : List (Key × α)) :
    (finalOutputs rows).map (fun row => sessionOf row.1) = (finalSessions (rows.map Prod.fst)).map Prod.fst := by
  apply filterMap_named
  intro session member
  obtain ⟨row, _, found, same⟩ := finalSessions_row rows session member
  exact ⟨row, found, same⟩

theorem finalOutputs_perm (distinct : (rows.map Prod.fst).Nodup) : (finalOutputs rows).Perm (finals rows) := by
  have apart : (finalOutputs rows).Nodup := by
    apply List.Nodup.of_map (fun row => sessionOf row.1)
    rw [finalOutputs_sessions]
    exact finalSessions_distinct _
  have whole : (finals rows).Nodup := (List.Nodup.of_map _ distinct).filter _
  apply (perm_ext_iff_of_nodup apart whole).mpr
  intro row
  constructor
  · intro member
    obtain ⟨session, among, found⟩ := mem_filterMap.mp member
    obtain ⟨final, isFinal, read, _⟩ := finalSessions_row rows session among
    rw [read] at found
    cases found
    exact isFinal
  · intro final
    have named : sessionOf row.1 ∈ (finalSessions (rows.map Prod.fst)).map Prod.fst := by
      rw [finalSessions_sessions, map_map]
      exact mem_map.mpr ⟨row, (mem_finals.mp final).1, rfl⟩
    obtain ⟨session, among, same⟩ := mem_map.mp named
    obtain ⟨other, isFinal, read, ofSession⟩ := finalSessions_row rows session among
    have here : other = row := finals_unique distinct final isFinal (ofSession.trans same)
    exact mem_filterMap.mpr ⟨session, among, here ▸ read⟩

end LLMFusion.SyncTrainer
