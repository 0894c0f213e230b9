/-
This file is a small library about caches that evict what is used least frequently.

A store has a capacity and residents, each with a size, the number of its accesses since it was
inserted and the time of the last of them. Residents are evicted one at a time, and the one that goes
has the fewest accesses, and among those the oldest last access. Numbers are unbounded, and no two
residents have been accessed at the same time, so the policy never leaves a choice.
-/

import Mathlib.Algebra.GroupWithZero.Nat
import Mathlib.Data.List.MinMax
import Mathlib.Data.List.Nodup
import Mathlib.Data.Prod.Lex
import SuperPeerNet.Library.KeyedList

namespace Lfu

/-- What a store holds under a key. -/
structure Resident (Key Content : Type) where
  key : Key
  content : Content
  size : ℕ
  count : ℕ
  latest : ℕ

variable {Key Content : Type}

namespace Resident

/-- The order in which residents are evicted: fewer accesses first, then the older last access. -/
def rank (resident : Resident Key Content) : ℕ ×ₗ ℕ := toLex (resident.count, resident.latest)

/-- One more access. -/
def access (now : ℕ) (resident : Resident Key Content) : Resident Key Content :=
  { resident with count := resident.count + 1, latest := now }

theorem rank_lt {first second : Resident Key Content} : first.rank < second.rank ↔
    first.count < second.count ∨ first.count = second.count ∧ first.latest < second.latest :=
  Prod.Lex.toLex_lt_toLex

end Resident

/-- The bytes that residents take. -/
def used (residents : List (Resident Key Content)) : ℕ := (residents.map Resident.size).sum

section Evict

variable [DecidableEq Key]

/-- Remove the resident of the least rank. -/
def evict (residents : List (Resident Key Content)) : List (Resident Key Content) :=
  match residents.argmin Resident.rank with
  | none => []
  | some victim => residents.eraseP fun resident => resident.key = victim.key

/-- Evict residents one at a time while they take more than a limit, with a bound on the turns. -/
def shrink (limit : ℕ) : ℕ → List (Resident Key Content) → List (Resident Key Content)
  | 0, residents => residents
  | turns + 1, residents =>
    if used residents > limit then shrink limit turns (evict residents) else residents

/-- The residents that stay when others are evicted until at most a limit is taken. -/
def keep (limit : ℕ) (residents : List (Resident Key Content)) : List (Resident Key Content) :=
  shrink limit residents.length residents

/-- Exactly one resident goes, and none of a smaller rank stays. -/
theorem evict_eq {residents : List (Resident Key Content)} (some : residents ≠ []) :
    ∃ victim, residents.argmin Resident.rank = Option.some victim ∧ victim ∈ residents ∧
      (∀ other ∈ residents, victim.rank ≤ other.rank) ∧
      evict residents = residents.eraseP fun resident => resident.key = victim.key := by
  cases found : residents.argmin Resident.rank with
  | none => exact absurd (List.argmin_eq_none.mp found) some
  | some victim =>
    refine ⟨victim, rfl, List.argmin_mem found,
      fun other member => List.le_of_mem_argmin member found, ?_⟩
    rw [evict, found]

theorem length_evict {residents : List (Resident Key Content)} (some : residents ≠ []) :
    (evict residents).length + 1 = residents.length := by
  obtain ⟨victim, -, member, -, evicted⟩ := evict_eq some
  rw [evicted, List.length_eraseP_of_mem member (decide_eq_true rfl)]
  exact Nat.sub_add_cancel (List.length_pos_of_mem member)

theorem evict_sublist (residents : List (Resident Key Content)) :
    (evict residents).Sublist residents := by
  unfold evict
  split
  · exact List.nil_sublist _
  · exact List.eraseP_sublist

theorem shrink_sublist (limit turns : ℕ) (residents : List (Resident Key Content)) :
    (shrink limit turns residents).Sublist residents := by
  induction turns generalizing residents with
  | zero => exact List.Sublist.refl _
  | succ turns inductionHypothesis =>
    rw [shrink]
    split
    · exact (inductionHypothesis _).trans (evict_sublist residents)
    · exact List.Sublist.refl _

theorem keep_sublist (limit : ℕ) (residents : List (Resident Key Content)) :
    (keep limit residents).Sublist residents :=
  shrink_sublist limit residents.length residents

/-- More turns than there are residents change nothing. -/
theorem shrink_eq_keep {limit turns : ℕ} {residents : List (Resident Key Content)}
    (enough : residents.length ≤ turns) : shrink limit turns residents = keep limit residents := by
  unfold keep
  generalize length : residents.length = count at enough ⊢
  induction count generalizing turns residents with
  | zero =>
    obtain rfl := List.length_eq_zero_iff.mp length
    cases turns with
    | zero => rfl
    | succ turns => exact if_neg (Nat.not_lt_zero limit)
  | succ count inductionHypothesis =>
    have nonempty : residents ≠ [] := List.ne_nil_of_length_eq_add_one length
    have shorter := length_evict nonempty
    cases turns with
    | zero => omega
    | succ turns =>
      rw [shrink, shrink]
      split
      · exact inductionHypothesis (by omega) (by omega)
      · rfl

/-- What stays is within the limit. -/
theorem used_keep (limit : ℕ) (residents : List (Resident Key Content)) :
    used (keep limit residents) ≤ limit := by
  unfold keep
  generalize length : residents.length = count
  induction count generalizing residents with
  | zero =>
    obtain rfl := List.length_eq_zero_iff.mp length
    exact Nat.zero_le limit
  | succ count inductionHypothesis =>
    have shorter := length_evict (List.ne_nil_of_length_eq_add_one length)
    rw [shrink]
    split
    · exact inductionHypothesis _ (by omega)
    · rename_i fits
      exact not_lt.mp fits

end Evict

/-! ### Stores -/

/-- A store, with the number of accesses so far as its clock. -/
structure Store (Key Content : Type) where
  capacity : ℕ
  residents : List (Resident Key Content)
  now : ℕ

namespace Store

variable [DecidableEq Key]

/-- A store without residents. -/
def empty (capacity : ℕ) : Store Key Content := ⟨capacity, [], 0⟩

/-- An access to a resident. -/
def access (store : Store Key Content) (key : Key) : Store Key Content :=
  { store with
    residents := KeyedList.modify Resident.key (Resident.access (store.now + 1)) key store.residents
    now := store.now + 1 }

/-- The insertion of a content, which is its first access. A content that is larger than the
capacity is never inserted. -/
def insert (store : Store Key Content) (key : Key) (content : Content) (size : ℕ) :
    Store Key Content :=
  if size > store.capacity then store
  else
    { store with
      residents := ⟨key, content, size, 1, store.now + 1⟩ ::
        keep (store.capacity - size) store.residents
      now := store.now + 1 }

/-- A read of a key, with what is read when there is no resident. -/
def read (store : Store Key Content) (key : Key) (fetched : Option (Content × ℕ)) :
    Store Key Content :=
  if (KeyedList.lookup Resident.key store.residents key).isSome then store.access key
  else match fetched with
    | none => store
    | some (content, size) => store.insert key content size

/-- A change of the capacity. -/
def resize (store : Store Key Content) (capacity : ℕ) : Store Key Content :=
  { store with capacity := capacity, residents := keep capacity store.residents }

/-- A read is at most one access. -/
theorem now_read (store : Store Key Content) (key : Key) (fetched : Option (Content × ℕ)) :
    (store.read key fetched).now ≤ store.now + 1 := by
  unfold Store.read Store.insert
  split
  · exact Nat.le_refl _
  · split
    · exact Nat.le_succ _
    · split
      · exact Nat.le_succ _
      · exact Nat.le_refl _

/-! ### The policy leaves no choice -/

/-- The invariant of a store: the residents have different keys and different last accesses, they
have been accessed at most as often as there were accesses, and they fit. -/
structure Sound (store : Store Key Content) : Prop where
  distinct : KeyedList.Distinct Resident.key store.residents
  past : ∀ resident ∈ store.residents, resident.latest ≤ store.now
  few : ∀ resident ∈ store.residents, resident.count ≤ store.now
  apart : KeyedList.Distinct Resident.latest store.residents
  fits : used store.residents ≤ store.capacity

variable {store : Store Key Content}

omit [DecidableEq Key] in
/-- Two residents never have the same rank. -/
theorem Sound.rank_injective (sound : store.Sound) {first second : Resident Key Content}
    (inFirst : first ∈ store.residents) (inSecond : second ∈ store.residents)
    (same : first.rank = second.rank) : first = second := by
  have pairs : (first.count, first.latest) = (second.count, second.latest) :=
    toLex.injective same
  exact List.inj_on_of_nodup_map (KeyedList.distinct_iff_nodup.mp sound.apart) inFirst inSecond
    (congrArg Prod.snd pairs)

omit [DecidableEq Key] in
theorem sound_empty (capacity : ℕ) : (empty capacity : Store Key Content).Sound where
  distinct := List.Pairwise.nil
  past := nofun
  few := nofun
  apart := List.Pairwise.nil
  fits := Nat.zero_le capacity

theorem Sound.access (sound : store.Sound) (key : Key) : (store.access key).Sound := by
  let again : Resident Key Content → Resident Key Content := Resident.access (store.now + 1)
  have sameKey : ∀ resident, (again resident).key = resident.key := fun _ => rfl
  have sameSize : ∀ resident, resident.key = key → (again resident).size = resident.size :=
    fun _ _ => rfl
  have sizes : (store.access key).residents.map Resident.size =
      store.residents.map Resident.size := KeyedList.map_modify _ sameSize store.residents
  have new : ∀ resident ∈ store.residents, resident.latest ≠ store.now + 1 :=
    fun resident member same => Nat.not_succ_le_self _ (same ▸ sound.past resident member)
  refine ⟨KeyedList.distinct_modify sameKey sound.distinct, ?_, ?_,
    KeyedList.pairwise_modify (fun _ _ second member _ => (new second member).symm)
      (fun first member _ _ _ => new first member) sound.apart, ?_⟩
  · intro resident member
    rcases KeyedList.mem_modify member with old | ⟨old, -, rfl⟩
    · exact Nat.le_succ_of_le (sound.past resident old)
    · exact Nat.le_refl _
  · intro resident member
    rcases KeyedList.mem_modify member with old | ⟨old, found, rfl⟩
    · exact Nat.le_succ_of_le (sound.few resident old)
    · exact Nat.succ_le_succ (sound.few old (KeyedList.lookup_mem found))
  · show used (store.access key).residents ≤ store.capacity
    rw [used, sizes]
    exact sound.fits

theorem Sound.resize (sound : store.Sound) (capacity : ℕ) : (store.resize capacity).Sound where
  distinct := sound.distinct.sublist (keep_sublist _ _)
  past := fun resident member => sound.past resident ((keep_sublist _ _).subset member)
  few := fun resident member => sound.few resident ((keep_sublist _ _).subset member)
  apart := sound.apart.sublist (keep_sublist _ _)
  fits := used_keep capacity store.residents

theorem Sound.insert (sound : store.Sound) {key : Key}
    (absent : KeyedList.lookup Resident.key store.residents key = none) (content : Content)
    (size : ℕ) : (store.insert key content size).Sound := by
  unfold Store.insert
  split
  · exact sound
  · rename_i small
    have kept := sound.resize (store.capacity - size)
    refine ⟨List.pairwise_cons.mpr ⟨?_, kept.distinct⟩, ?_, ?_,
      List.pairwise_cons.mpr ⟨?_, kept.apart⟩, ?_⟩
    · intro other member same
      exact KeyedList.lookup_eq_none.mp absent other ((keep_sublist _ _).subset member) same.symm
    · intro resident member
      rcases List.mem_cons.mp member with rfl | old
      · exact Nat.le_refl _
      · exact Nat.le_succ_of_le (kept.past resident old)
    · intro resident member
      rcases List.mem_cons.mp member with rfl | old
      · exact Nat.le_add_left 1 store.now
      · exact Nat.le_succ_of_le (kept.few resident old)
    · intro other member same
      have past := kept.past other member
      change store.now + 1 = other.latest at same
      change other.latest ≤ store.now at past
      omega
    · have room := used_keep (store.capacity - size) store.residents
      show size + used (keep (store.capacity - size) store.residents) ≤ store.capacity
      omega

theorem Sound.read (sound : store.Sound) (key : Key) (fetched : Option (Content × ℕ)) :
    (store.read key fetched).Sound := by
  unfold Store.read
  split
  · exact sound.access key
  · rename_i missing
    cases fetched with
    | none => exact sound
    | some pair =>
      refine sound.insert ?_ pair.1 pair.2
      rw [Bool.not_eq_true, Option.isSome_eq_false_iff, Option.isNone_iff_eq_none] at missing
      exact missing

end Store

end Lfu
