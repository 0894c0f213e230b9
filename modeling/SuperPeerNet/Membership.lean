/-
This file models the part of `membership.c` that the replicated log and the
store handlers read: the member records of a super peer and the two lookups over
them. The detector that writes the records is not needed here; the theorems of
the cluster hold for every table it can produce.
-/

import SuperPeerNet.Protocol

namespace SuperPeerNet

/-- `NodeRole`. -/
inductive NodeRole where
  | peer | superPeer
  deriving DecidableEq, Repr

/-- `SuperPeerMemberState`, in the order of its numbering. -/
inductive SuperPeerMemberState where
  | alive | suspect | failed | removed
  deriving DecidableEq, Repr

/-- `state < SUPERPEER_MEMBER_FAILED`. -/
def SuperPeerMemberState.belowFailed : SuperPeerMemberState → Bool
  | .alive | .suspect => true
  | .failed | .removed => false

/-- The fields of `SuperPeerMember` that the modelled handlers read. -/
structure SuperPeerMember where
  id : NodeID
  role : NodeRole
  state : SuperPeerMemberState
  localRegistration : Bool
  deriving DecidableEq

/-- `find_member_index_locked`, followed by the copy of the record. -/
def findMember (members : List SuperPeerMember) (id : NodeID) : Option SuperPeerMember :=
  members.find? fun member => member.id = id

/-- `superpeer_find_member`: a tombstone is not found. -/
def superpeerFindMember (members : List SuperPeerMember) (id : NodeID) :
    Except Errno SuperPeerMember :=
  match findMember members id with
  | none => .error .enoent
  | some member => if member.state = .removed then .error .enoent else .ok member

/-- `superpeer_is_registered`. -/
def superpeerIsRegistered (members : List SuperPeerMember) (id : NodeID) : Bool :=
  match findMember members id with
  | none => false
  | some member => member.localRegistration && member.state.belowFailed

end SuperPeerNet
