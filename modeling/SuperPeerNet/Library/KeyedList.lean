/-
This file is a small library of tables kept as lists and searched from the front.

A table is a list of rows, each with a key. `lookup` returns the first row with a
key and `modify` changes that row in place. The rules below say what a lookup
returns after an append or a modification, and that both keep the keys of a table
distinct; they hold for every type of rows and every key with decidable equality.
-/

import Mathlib.Data.List.Basic
import Mathlib.Data.List.Forall2

namespace KeyedList

variable {Row Key : Type} [DecidableEq Key] (key : Row → Key)

/-- The first row with the wanted key. -/
def lookup (rows : List Row) (wanted : Key) : Option Row :=
  rows.find? fun row => key row = wanted

/-- Change the first row with the wanted key. -/
def modify (change : Row → Row) (wanted : Key) : List Row → List Row
  | [] => []
  | row :: rest => if key row = wanted then change row :: rest else row :: modify change wanted rest

/-- No two rows share a key. -/
def Distinct (rows : List Row) : Prop :=
  rows.Pairwise fun first second => key first ≠ key second

variable {key}

theorem lookup_key {rows : List Row} {wanted : Key} {row : Row}
    (found : lookup key rows wanted = some row) : key row = wanted := by
  simpa using List.find?_some found

theorem lookup_mem {rows : List Row} {wanted : Key} {row : Row}
    (found : lookup key rows wanted = some row) : row ∈ rows :=
  List.mem_of_find?_eq_some found

theorem lookup_eq_none {rows : List Row} {wanted : Key} :
    lookup key rows wanted = none ↔ ∀ row ∈ rows, key row ≠ wanted := by
  simp [lookup]

/-- In a table with distinct keys every row is found under its own key. -/
theorem lookup_eq_some_iff {rows : List Row} (distinct : Distinct key rows) {wanted : Key}
    {row : Row} : lookup key rows wanted = some row ↔ row ∈ rows ∧ key row = wanted := by
  constructor
  · intro found
    exact ⟨lookup_mem found, lookup_key found⟩
  · rintro ⟨member, rfl⟩
    induction rows with
    | nil => cases member
    | cons head rest inductionHypothesis =>
      obtain ⟨headDistinct, restDistinct⟩ := List.pairwise_cons.mp distinct
      rw [lookup, List.find?_cons]
      rcases List.mem_cons.mp member with rfl | inRest
      · simp
      · rw [decide_eq_false (headDistinct row inRest)]
        exact inductionHypothesis restDistinct inRest

theorem lookup_append (rows extra : List Row) (wanted : Key) :
    lookup key (rows ++ extra) wanted =
      (lookup key rows wanted).or (lookup key extra wanted) := by
  rw [lookup, List.find?_append]
  rfl

theorem lookup_singleton (row : Row) (wanted : Key) :
    lookup key [row] wanted = if key row = wanted then some row else none := by
  rw [lookup, List.find?_singleton]
  simp

/-- A change of all rows that keeps the keys changes the row that is found. -/
theorem lookup_map {change : Row → Row} (keeps : ∀ row, key (change row) = key row)
    (rows : List Row) (wanted : Key) :
    lookup key (rows.map change) wanted = (lookup key rows wanted).map change := by
  rw [lookup, List.find?_map]
  congr 2
  funext row
  simp only [Function.comp_apply, keeps]

theorem distinct_append_singleton {rows : List Row} (distinct : Distinct key rows) {row : Row}
    (fresh : lookup key rows (key row) = none) : Distinct key (rows ++ [row]) := by
  refine List.pairwise_append.mpr ⟨distinct, List.pairwise_singleton _ _, ?_⟩
  intro old member new isNew
  rw [List.mem_singleton] at isNew
  rw [isNew]
  exact lookup_eq_none.mp fresh old member

/-- Without the first row with a key, other keys are found as before. -/
theorem lookup_eraseP_of_ne {wanted other : Key} (apart : other ≠ wanted) (rows : List Row) :
    lookup key (rows.eraseP fun row => key row = wanted) other = lookup key rows other := by
  induction rows with
  | nil => rfl
  | cons head rest inductionHypothesis =>
    unfold lookup at inductionHypothesis ⊢
    by_cases atHead : key head = wanted
    · rw [List.eraseP_cons_of_pos (by simpa using atHead), List.find?_cons_of_neg]
      simpa [atHead] using Ne.symm apart
    · rw [List.eraseP_cons_of_neg (by simpa using atHead), List.find?_cons, List.find?_cons,
        inductionHypothesis]

/-- In a table with distinct keys, the key of a row that has been erased is not found any more. -/
theorem lookup_eraseP_self {rows : List Row} (distinct : Distinct key rows) (wanted : Key) :
    lookup key (rows.eraseP fun row => key row = wanted) wanted = none := by
  induction rows with
  | nil => rfl
  | cons head rest inductionHypothesis =>
    obtain ⟨headDistinct, restDistinct⟩ := List.pairwise_cons.mp distinct
    by_cases atHead : key head = wanted
    · rw [List.eraseP_cons_of_pos (by simpa using atHead)]
      exact lookup_eq_none.mpr fun row inRest same => headDistinct row inRest (atHead.trans same.symm)
    · rw [List.eraseP_cons_of_neg (by simpa using atHead), lookup,
        List.find?_cons_of_neg (by simpa using atHead)]
      exact inductionHypothesis restDistinct

/-- In a table with distinct keys, a row is erased by its place or by its key. -/
theorem eraseIdx_eq_eraseP {rows : List Row} (distinct : Distinct key rows) {place : Nat} {row : Row}
    (there : rows[place]? = some row) :
    rows.eraseIdx place = rows.eraseP fun other => key other = key row := by
  induction rows generalizing place with
  | nil => cases there
  | cons head rest inductionHypothesis =>
    obtain ⟨headDistinct, restDistinct⟩ := List.pairwise_cons.mp distinct
    cases place with
    | zero =>
      cases there
      rw [List.eraseP_cons_of_pos (by simp), List.eraseIdx_cons_zero]
    | succ place =>
      have inRest : rest[place]? = some row := there
      have other : key head ≠ key row := headDistinct row (List.mem_of_getElem? inRest)
      rw [List.eraseP_cons_of_neg (by simpa using other), List.eraseIdx_cons_succ,
        inductionHypothesis restDistinct inRest]

section Modify

variable {change : Row → Row} {wanted : Key}

/-- A modified lookup: the changed row under its key, every other row as it was. -/
theorem lookup_modify (keeps : ∀ row, key row = wanted → key (change row) = wanted)
    (rows : List Row) (other : Key) :
    lookup key (modify key change wanted rows) other =
      if other = wanted then (lookup key rows other).map change else lookup key rows other := by
  induction rows with
  | nil => simp [modify, lookup]
  | cons head rest inductionHypothesis =>
    unfold lookup at inductionHypothesis ⊢
    by_cases atHead : key head = wanted <;> by_cases same : other = wanted
    · subst same
      simp [modify, atHead, keeps head atHead]
    · have ne : wanted ≠ other := fun equal => same equal.symm
      simp [modify, atHead, keeps head atHead, ne, same]
    · subst same
      simpa [modify, atHead] using inductionHypothesis
    · by_cases found : key head = other
      · simp [modify, found, same]
      · rw [if_neg same] at inductionHypothesis
        simp [modify, atHead, found, same, inductionHypothesis]

theorem map_modify {Value : Type} (project : Row → Value)
    (unchanged : ∀ row, key row = wanted → project (change row) = project row)
    (rows : List Row) : (modify key change wanted rows).map project = rows.map project := by
  induction rows with
  | nil => rfl
  | cons head rest inductionHypothesis =>
    rw [modify]
    split
    · rename_i atHead
      rw [List.map_cons, List.map_cons, unchanged head atHead]
    · rw [List.map_cons, List.map_cons, inductionHypothesis]

/-- A modification of a table is one of its image, under the same keys. -/
theorem map_modify_image {Image : Type} {imageKey : Image → Key} {imageChange : Image → Image}
    {project : Row → Image} (keys : ∀ row, imageKey (project row) = key row) {rows : List Row}
    (changes : ∀ row ∈ rows, project (change row) = imageChange (project row)) :
    (modify key change wanted rows).map project =
      modify imageKey imageChange wanted (rows.map project) := by
  induction rows with
  | nil => rfl
  | cons head rest inductionHypothesis =>
    obtain ⟨atHead, later⟩ := List.forall_mem_cons.mp changes
    rw [modify, List.map_cons, modify, keys]
    split
    · rw [List.map_cons, atHead]
    · rw [List.map_cons, inductionHypothesis later]

theorem length_modify (rows : List Row) : (modify key change wanted rows).length = rows.length := by
  induction rows with
  | nil => rfl
  | cons head rest inductionHypothesis =>
    rw [modify]
    split
    · rfl
    · rw [List.length_cons, List.length_cons, inductionHypothesis]

theorem distinct_modify (keeps : ∀ row, key (change row) = key row) {rows : List Row}
    (distinct : Distinct key rows) : Distinct key (modify key change wanted rows) := by
  have keys : (modify key change wanted rows).map key = rows.map key :=
    map_modify key (fun row _ => keeps row) rows
  unfold Distinct at distinct ⊢
  rw [← List.pairwise_map] at distinct ⊢
  rw [keys]
  exact distinct

/-- A change that leaves the row that is found as it is changes nothing. -/
theorem modify_fixed {rows : List Row} {row : Row} (found : lookup key rows wanted = some row)
    (fixed : change row = row) : modify key change wanted rows = rows := by
  induction rows with
  | nil => rfl
  | cons head rest inductionHypothesis =>
    rw [lookup, List.find?_cons] at found
    rw [modify]
    split
    · rename_i atHead
      rw [decide_eq_true atHead] at found
      cases found
      rw [fixed]
    · rename_i notHead
      rw [decide_eq_false notHead] at found
      rw [inductionHypothesis found]

/-- Writing back the row that is found changes nothing. -/
theorem modify_self {rows : List Row} {row : Row} (found : lookup key rows wanted = some row) :
    modify key (fun _ => row) wanted rows = rows :=
  modify_fixed found rfl

/-- The second of two rows that are written in one place stays. -/
theorem modify_modify {first : Row} (same : key first = wanted) (second : Row) (rows : List Row) :
    modify key (fun _ => second) wanted (modify key (fun _ => first) wanted rows) =
      modify key (fun _ => second) wanted rows := by
  induction rows with
  | nil => rfl
  | cons head rest inductionHypothesis =>
    by_cases atHead : key head = wanted
    · simp only [modify, if_pos atHead, if_pos same]
    · simp only [modify, if_neg atHead, inductionHypothesis]

/-- A row of a modified table is an old row or the change of the row that was looked up. -/
theorem mem_modify {rows : List Row} {row : Row}
    (member : row ∈ modify key change wanted rows) :
    row ∈ rows ∨ ∃ old, lookup key rows wanted = some old ∧ row = change old := by
  induction rows with
  | nil => exact Or.inl member
  | cons head rest inductionHypothesis =>
    rw [modify] at member
    split at member
    · rename_i atHead
      rcases List.mem_cons.mp member with rfl | inRest
      · exact Or.inr ⟨head, by simp [lookup, atHead], rfl⟩
      · exact Or.inl (List.mem_cons_of_mem _ inRest)
    · rename_i notHead
      rcases List.mem_cons.mp member with rfl | inRest
      · exact Or.inl List.mem_cons_self
      · rcases inductionHypothesis inRest with old | ⟨old, found, same⟩
        · exact Or.inl (List.mem_cons_of_mem _ old)
        · refine Or.inr ⟨old, ?_, same⟩
          rw [lookup, List.find?_cons_of_neg (by simpa using notHead)]
          exact found

/-- A modification keeps a relation between rows that the change keeps on either side. -/
theorem pairwise_modify {related : Row → Row → Prop} {rows : List Row}
    (left : ∀ first ∈ rows, ∀ second ∈ rows, related first second → related (change first) second)
    (right : ∀ first ∈ rows, ∀ second ∈ rows, related first second → related first (change second))
    (pairs : rows.Pairwise related) : (modify key change wanted rows).Pairwise related := by
  induction rows with
  | nil => exact List.Pairwise.nil
  | cons head rest inductionHypothesis =>
    obtain ⟨headRelated, restPairs⟩ := List.pairwise_cons.mp pairs
    rw [modify]
    split
    · exact List.pairwise_cons.mpr
        ⟨fun row member => left head List.mem_cons_self row (List.mem_cons_of_mem _ member)
          (headRelated row member), restPairs⟩
    · refine List.pairwise_cons.mpr ⟨?_, inductionHypothesis
        (fun first inFirst second inSecond => left first (List.mem_cons_of_mem _ inFirst) second
          (List.mem_cons_of_mem _ inSecond))
        (fun first inFirst second inSecond => right first (List.mem_cons_of_mem _ inFirst) second
          (List.mem_cons_of_mem _ inSecond)) restPairs⟩
      intro row member
      rcases mem_modify member with old | ⟨old, found, rfl⟩
      · exact headRelated row old
      · have inside := lookup_mem found
        exact right head List.mem_cons_self old (List.mem_cons_of_mem _ inside)
          (headRelated old inside)

/-- A modification relates every row to itself, except for the row that is found. -/
theorem forall₂_modify {related : Row → Row → Prop} (same : ∀ row, related row row)
    {rows : List Row} {row : Row} (found : lookup key rows wanted = some row)
    (changed : related row (change row)) :
    List.Forall₂ related rows (modify key change wanted rows) := by
  induction rows with
  | nil => exact List.Forall₂.nil
  | cons head rest inductionHypothesis =>
    rw [lookup, List.find?_cons] at found
    rw [modify]
    split
    · rename_i atHead
      rw [decide_eq_true atHead] at found
      cases found
      exact List.Forall₂.cons changed (List.forall₂_same.mpr fun row _ => same row)
    · rename_i notHead
      rw [decide_eq_false notHead] at found
      exact List.Forall₂.cons (same head) (inductionHypothesis found)

end Modify

/-- Tables whose rows are related place by place, under the same keys, have related lookups. -/
theorem rel_lookup {related : Row → Row → Prop}
    (keeps : ∀ first second, related first second → key second = key first)
    {rows others : List Row} (pairs : List.Forall₂ related rows others) (wanted : Key) :
    Option.Rel related (lookup key rows wanted) (lookup key others wanted) := by
  induction pairs with
  | nil => exact Option.Rel.none
  | cons head rest inductionHypothesis =>
    rw [lookup, lookup, List.find?_cons, List.find?_cons, keeps _ _ head]
    split
    · exact Option.Rel.some head
    · exact inductionHypothesis

omit [DecidableEq Key] in
/-- Tables whose rows are related place by place, under the same keys, have the same keys. -/
theorem map_key_of_forall₂ {related : Row → Row → Prop}
    (keeps : ∀ first second, related first second → key second = key first)
    {rows others : List Row} (pairs : List.Forall₂ related rows others) :
    others.map key = rows.map key := by
  induction pairs with
  | nil => rfl
  | cons head _ inductionHypothesis =>
    rw [List.map_cons, List.map_cons, keeps _ _ head, inductionHypothesis]

/-- Every row of the second of two related tables has a counterpart in the first. -/
theorem exists_related {related : Row → Row → Prop} {rows others : List Row}
    (pairs : List.Forall₂ related rows others) {other : Row} (member : other ∈ others) :
    ∃ row ∈ rows, related row other := by
  induction pairs with
  | nil => cases member
  | cons head _ inductionHypothesis =>
    rcases List.mem_cons.mp member with rfl | inRest
    · exact ⟨_, List.mem_cons_self, head⟩
    · obtain ⟨row, among, holds⟩ := inductionHypothesis inRest
      exact ⟨row, List.mem_cons_of_mem _ among, holds⟩

/-- Rows of related tables are related at every position. -/
theorem getElem?_related {related : Row → Row → Prop} {rows others : List Row}
    (pairs : List.Forall₂ related rows others) {position : Nat} {row : Row}
    (found : rows[position]? = some row) :
    ∃ other, others[position]? = some other ∧ related row other := by
  induction pairs generalizing position with
  | nil => cases found
  | cons head _ inductionHypothesis =>
    cases position with
    | zero =>
      cases found
      exact ⟨_, rfl, head⟩
    | succ position => exact inductionHypothesis found

omit [DecidableEq Key] in
theorem distinct_iff_nodup {rows : List Row} : Distinct key rows ↔ (rows.map key).Nodup := by
  rw [Distinct, List.Nodup, List.pairwise_map]

end KeyedList
