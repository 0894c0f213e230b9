/-
This file shows that the filter of duplicates in `c4_recover_from_member` is exact and always ends.

The filter is the part of the validation of a page that works on the table `seen`, for an arbitrary
hash function: the ids of the page are inserted one after the other, and an id that the table holds
is reported. The table is twice as large as the page, so a probe always meets a free slot, and an id
is reported exactly when an earlier one is the same, however the hashes collide.
-/

import SuperPeerNet.Cluster.Intake

namespace SuperPeerNet

open Bounded

/-! ### The filter -/

/-- `seen`, as it is allocated for a number of entries. -/
def seenTable (count : UInt32) : List (Option TransactionId) :=
  List.replicate (seenCapacity count.toNat) none

/-- The insertion of an id into `seen`. A probe that does not end within one round has no result. -/
def seenInsert (hash : TransactionId → UInt64) (seen : List (Option TransactionId))
    (id : TransactionId) : Access Errno (List (Option TransactionId)) :=
  match seenProbe hash seen id seen.length with
  | none => .error .outside
  | some .stored => refuse .eexist
  | some (.free position) => put seen position (some id)

/-- The insertions of the ids of a page, up to the first one that is reported. -/
def seenInsertAll (hash : TransactionId → UInt64) :
    List (Option TransactionId) → List TransactionId → Access Errno (List (Option TransactionId))
  | seen, [] => .ok seen
  | seen, id :: rest => do
    let seen ← seenInsert hash seen id
    seenInsertAll hash seen rest

theorem seenInsert_c4TransactionHash : seenInsert c4TransactionHash = seenAdd := rfl

/-- The ids of a page that is accepted have passed the filter. -/
theorem seenInsertAll_of_loadIstItems [Zlib] {log : C4Log} {payload : List UInt8} {count : Nat}
    {cursor : UInt32} {index version : UInt64} {seen : List (Option TransactionId)}
    {entries : List C4LogEntry}
    (accepted : loadIstItems log payload count cursor index version seen = .ok entries) :
    ∃ after, seenInsertAll c4TransactionHash seen (entries.map C4LogEntry.transactionId) =
      .ok after := by
  induction count generalizing cursor index version seen entries with
  | zero =>
    rw [loadIstItems] at accepted
    obtain ⟨_, -, ended⟩ := exists_of_bind accepted
    cases ended
    exact ⟨seen, rfl⟩
  | succ count inductionHypothesis =>
    rw [loadIstItems] at accepted
    obtain ⟨_, -, accepted⟩ := exists_of_bind accepted
    obtain ⟨_, -, accepted⟩ := exists_of_bind accepted
    obtain ⟨_, -, accepted⟩ := exists_of_bind accepted
    obtain ⟨entry, -, accepted⟩ := exists_of_bind accepted
    obtain ⟨_, -, accepted⟩ := exists_of_bind accepted
    split at accepted
    · cases accepted
    · obtain ⟨_, -, accepted⟩ := exists_of_bind accepted
      obtain ⟨next, inserted, accepted⟩ := exists_of_bind accepted
      obtain ⟨others, rest, last⟩ := exists_of_bind accepted
      cases last
      obtain ⟨after, filtered⟩ := inductionHypothesis rest
      refine ⟨after, ?_⟩
      rw [List.map_cons, seenInsertAll, seenInsert_c4TransactionHash, inserted]
      exact filtered

/-! ### The table is never full -/

/-- The table holds the ids of a list, under a hash function. -/
structure SeenBy (hash : TransactionId → UInt64) (slots : List (Option TransactionId))
    (ids : List TransactionId) : Prop where
  holds : Probing.Holds (fun id => (hash id).toNat) slots ids
  power : ∃ exponent, slots.length = 2 ^ exponent

variable {hash : TransactionId → UInt64} {slots : List (Option TransactionId)}
  {ids : List TransactionId}

theorem SeenBy.blank (hash : TransactionId → UInt64) (count : UInt32) :
    SeenBy hash (seenTable count) [] where
  holds := Probing.holds_blank _ _
  power := by
    rw [seenTable, List.length_replicate]
    exact (seenCapacity_spec count.toNat_lt).1

/-- A probe ends within one round while the table is not full. -/
theorem SeenBy.ends (seen : SeenBy hash slots ids) (room : ids.length < slots.length)
    (id : TransactionId) : ∃ landing, seenProbe hash slots id slots.length = some landing := by
  have found := seenProbe_found seen.holds seen.power room id
  generalize seenProbe hash slots id slots.length = landing at found
  cases found with
  | stored => exact ⟨_, rfl⟩
  | free => exact ⟨_, rfl⟩

/-- An insertion reports the ids that the table holds and takes any other. -/
theorem SeenBy.insert (seen : SeenBy hash slots ids) (room : ids.length < slots.length)
    (id : TransactionId) :
    (id ∈ ids ∧ seenInsert hash slots id = refuse .eexist) ∨
      (id ∉ ids ∧ ∃ next, seenInsert hash slots id = .ok next ∧ next.length = slots.length ∧
        SeenBy hash next (id :: ids)) := by
  have found := seenProbe_found seen.holds seen.power room id
  unfold seenInsert
  generalize seenProbe hash slots id slots.length = landing at found
  cases found with
  | stored member => exact Or.inl ⟨member, rfl⟩
  | free new position inside holds =>
    refine Or.inr ⟨new, _, put_of_inside inside (some id), List.length_set, holds, ?_⟩
    rw [List.length_set]
    exact seen.power

/-- The insertions of a list: all of them are taken, or one of the ids is one that the table holds
or an earlier one of the list. -/
theorem SeenBy.insertAll (seen : SeenBy hash slots ids) (news : List TransactionId)
    (room : ids.length + news.length ≤ slots.length) :
    (¬ (news.Nodup ∧ ∀ id ∈ news, id ∉ ids) ∧ seenInsertAll hash slots news = refuse .eexist) ∨
      ((news.Nodup ∧ ∀ id ∈ news, id ∉ ids) ∧ ∃ after, seenInsertAll hash slots news = .ok after ∧
        after.length = slots.length ∧ SeenBy hash after (news.reverse ++ ids)) := by
  induction news generalizing slots ids with
  | nil => exact Or.inr ⟨⟨List.nodup_nil, nofun⟩, slots, rfl, rfl, seen⟩
  | cons id rest inductionHypothesis =>
    rw [List.length_cons] at room
    rw [seenInsertAll, List.nodup_cons, List.forall_mem_cons]
    rcases seen.insert (by omega) id with ⟨old, reported⟩ | ⟨new, next, taken, same, more⟩
    · rw [reported]
      exact Or.inl ⟨fun fresh => fresh.2.1 old, rfl⟩
    rw [taken, ok_bind]
    rcases inductionHypothesis more (by rw [same, List.length_cons]; omega) with
      ⟨stale, reported⟩ | ⟨⟨distinct, fresh⟩, after, all, size, full⟩
    · refine Or.inl ⟨fun fresh => stale ⟨fresh.1.2, fun other member => ?_⟩, reported⟩
      rw [List.mem_cons, not_or]
      exact ⟨fun equal => fresh.1.1 (equal ▸ member), fresh.2.2 other member⟩
    · have apart : ∀ other ∈ rest, other ≠ id ∧ other ∉ ids := fun other member =>
        not_or.mp (mt List.mem_cons.mpr (fresh other member))
      refine Or.inr ⟨⟨⟨fun member => (apart id member).1 rfl, distinct⟩, new,
        fun other member => (apart other member).2⟩, after, all, size.trans same, ?_⟩
      rw [List.reverse_cons, List.append_assoc]
      exact full

/-! ### The filter is exact -/

theorem doubled_lt {target turns capacity : Nat} (below : capacity < 2 * target) :
    doubled target turns capacity < 2 * target := by
  induction turns generalizing capacity with
  | zero => exact below
  | succ turns inductionHypothesis =>
    rw [doubled]
    split
    · exact inductionHypothesis (by omega)
    · exact below

/-- The capacity is a word: doubling it never wraps. -/
theorem seenCapacity_lt (count : UInt32) : seenCapacity count.toNat < 2 ^ 64 := by
  have small := count.toNat_lt
  rcases Nat.eq_zero_or_pos count.toNat with zero | positive
  · rw [zero]
    decide
  · have bound : seenCapacity count.toNat < 2 * (count.toNat * 2) := doubled_lt (by omega)
    omega

/-- For every hash function and every page, the loop that sets the capacity ends with a word that is
large enough, every probe ends within one round of the table, and a duplicate is reported if and
only if two ids of the page are equal. -/
theorem duplicate_filter_exact (hash : TransactionId → UInt64) {count : UInt32}
    {ids : List TransactionId} (length : ids.length = count.toNat) :
    (count.toNat * 2 ≤ seenCapacity count.toNat ∧ seenCapacity count.toNat < 2 ^ 64) ∧
    (∀ before id after seen, ids = before ++ id :: after →
      seenInsertAll hash (seenTable count) before = .ok seen →
        ∃ landing, seenProbe hash seen id (seenCapacity count.toNat) = some landing) ∧
    (seenInsertAll hash (seenTable count) ids = refuse .eexist ↔ ¬ ids.Nodup) ∧
    ((∃ seen, seenInsertAll hash (seenTable count) ids = .ok seen) ↔ ids.Nodup) := by
  have half := (seenCapacity_spec count.toNat_lt).2
  have size : (seenTable count).length = seenCapacity count.toNat := List.length_replicate
  have room : ids.length ≤ (seenTable count).length := by omega
  refine ⟨⟨half, seenCapacity_lt count⟩, fun before id after seen parts inserted => ?_, ?_⟩
  · have counted := congrArg List.length parts
    rw [List.length_append, List.length_cons] at counted
    rcases (SeenBy.blank hash count).insertAll before (by rw [List.length_nil]; omega) with
      ⟨-, reported⟩ | ⟨-, table, all, same, holds⟩
    · rw [inserted] at reported
      cases reported
    · obtain rfl := Except.ok.inj (inserted.symm.trans all)
      obtain ⟨landing, ended⟩ := holds.ends (by
        rw [List.length_append, List.length_reverse, List.length_nil]
        omega) id
      rw [same, size] at ended
      exact ⟨landing, ended⟩
  · rcases (SeenBy.blank hash count).insertAll ids
        (by rw [List.length_nil, Nat.zero_add]; exact room)
      with ⟨stale, reported⟩ | ⟨⟨distinct, -⟩, after, all, -, -⟩
    · have twice : ¬ ids.Nodup := fun distinct => stale ⟨distinct, fun _ _ => List.not_mem_nil⟩
      rw [reported]
      exact ⟨⟨fun _ => twice, fun _ => rfl⟩, ⟨nofun, fun distinct => absurd distinct twice⟩⟩
    · rw [all]
      exact ⟨⟨nofun, fun twice => absurd distinct twice⟩, ⟨fun _ => distinct, fun _ => ⟨_, rfl⟩⟩⟩

/-- Under a hash that is the same for all ids, a page with an id twice is reported. -/
theorem duplicate_filter_exact_constant :
    seenInsertAll (fun _ => 7) (seenTable 3)
        [Octets.fill transactionIdSize 1, Octets.fill transactionIdSize 2,
          Octets.fill transactionIdSize 1] = refuse .eexist :=
  (duplicate_filter_exact _ rfl).2.2.1.mpr (by decide)

end SuperPeerNet
