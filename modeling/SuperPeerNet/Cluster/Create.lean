/-
This file models `c4_cluster_create`: the log is opened from its two files, and every
committed entry is handed to the application again.

On a log that a restart restores, the loop over the indices visits the entries in
order, so creating the cluster succeeds exactly when the application accepts each
entry after the ones before it.
-/

import SuperPeerNet.Log.Restart
import SuperPeerNet.Cluster.Base

namespace SuperPeerNet

variable {Context : Type}

/-! ### Creating the cluster -/

/-- The loop of `c4_cluster_create` over the committed entries, with the number of turns that
are left. The index of a turn that fails is not looked at again. -/
def applyFrom (apply : C4ApplyEntry Context) (log : C4Log) :
    Nat → UInt64 → Context → Except Errno Context
  | 0, _, context => .ok context
  | remaining + 1, index, context => match c4LogGet log index with
    | .error code => .error code
    | .ok entry => match apply context entry with
      | (_, .error code) => .error code
      | (applied, .ok ()) => applyFrom apply log remaining (index + 1) applied

/-- `c4_cluster_create`, on the contents of the two files of the log. -/
def c4ClusterCreate [Zlib] (localId : NodeID) (members : List SuperPeerMember)
    (apply : C4ApplyEntry Context) (context : Context) (file journal : List UInt8) :
    Except Errno (C4Cluster Context) :=
  match c4LogOpen file journal with
  | .error code => .error code
  | .ok log => match applyFrom apply log (c4LogLastIndex log).toNat 1 context with
    | .error code => .error code
    | .ok applied => .ok
      { localId := localId
        members := members
        log := log
        context := applied
        leader := zeroNodeId
        term := 0
        electionRequested := true
        electionWaiting := false
        electionStartedMs := 0 }

/-! ### What the loop needs -/

/-- The loop from an index on applies the entries from there on. -/
theorem applyFrom_iff (apply : C4ApplyEntry Context) {log : C4Log} {front rest : List C4LogEntry}
    (split : log.entries = front ++ rest) (room : log.entries.length < 2 ^ 64) (context : Context) :
    (∃ applied, applyFrom apply log rest.length (UInt64.ofNat (front.length + 1)) context =
        .ok applied) ↔ Applies apply context rest := by
  induction rest generalizing front context with
  | nil => exact ⟨fun _ => trivial, fun _ => ⟨context, rfl⟩⟩
  | cons entry rest inductionHypothesis =>
    have index : (UInt64.ofNat (front.length + 1)).toNat = front.length + 1 := by
      rw [split, List.length_append, List.length_cons] at room
      rw [UInt64.toNat_ofNat', Nat.mod_eq_of_lt (by omega)]
    have got : c4LogGet log (UInt64.ofNat (front.length + 1)) = .ok entry := by
      have positive : UInt64.ofNat (front.length + 1) ≠ 0 := by
        intro zero
        rw [zero] at index
        cases index
      rw [c4LogGet, if_neg positive, index, split]
      simp
    have later := @inductionHypothesis (front ++ [entry]) (by simp [split])
    rw [List.length_append, List.length_singleton] at later
    have next : UInt64.ofNat (front.length + 1) + 1 = UInt64.ofNat (front.length + 1 + 1) :=
      (UInt64.ofNat_add (front.length + 1) 1).symm
    rw [List.length_cons, applyFrom, got]
    simp only [Applies, next]
    cases outcome : apply context entry with
    | mk applied result =>
      cases result with
      | error code => simp
      | ok done =>
        simp only [true_and]
        exact later applied

/-- From a log that a restart restores, the cluster is created exactly when its entries can be
applied in order. -/
theorem c4ClusterCreate_iff [Zlib] (localId : NodeID) (members : List SuperPeerMember)
    (apply : C4ApplyEntry Context) (context : Context) {log : C4Log} (restores : log.Restores)
    (room : log.entries.length < 2 ^ 64) :
    (∃ cluster, c4ClusterCreate localId members apply context log.file log.journal = .ok cluster) ↔
      Applies apply context log.entries := by
  obtain ⟨reopened, opened, entries, -⟩ := restores
  rw [← entries] at room ⊢
  have turns : (c4LogLastIndex reopened).toNat = reopened.entries.length := by
    rw [c4LogLastIndex, UInt64.toNat_ofNat', Nat.mod_eq_of_lt room]
  have loop := applyFrom_iff apply (List.nil_append reopened.entries).symm room context
  rw [← loop, c4ClusterCreate, opened]
  simp only [turns]
  show _ ↔ ∃ applied, applyFrom apply reopened reopened.entries.length 1 context = .ok applied
  cases applyFrom apply reopened reopened.entries.length 1 context <;> simp

end SuperPeerNet
