/-
This file models the payload of a `JOIN`, which describes a node by its configuration: the
address in its buffer, the port in network order and the UUID. The messages of the ring carry
their descriptors in the same form.

The address has the form that it has in a record of the membership, so what was shown about
reading it there applies here.
-/

import SuperPeerNet.Gossip.Ledger

namespace SuperPeerNet

/-- `JOIN_PAYLOAD_WIRE_SIZE`. -/
def joinPayloadWireSize : Nat := nodeAddressSize + 2 + nodeUuidSize

/-- The bytes of `rpc_encode_join_payload`. -/
def joinBytes (config : NodeConfig) : List UInt8 :=
  (Octets.read nodeAddressSize config.ip).toList ++ (wirePutU16 config.port ++ config.uuid.toList)

theorem length_joinBytes (config : NodeConfig) :
    (joinBytes config).length = joinPayloadWireSize := by
  simp only [joinBytes, List.length_append, Octets.length_toList, length_wirePutU16]
  rfl

section Join

variable [Inet] [Sha256]

/-- `rpc_encode_join_payload`. -/
def rpcEncodeJoinPayload (config : NodeConfig) : Except Errno (List UInt8) :=
  match nodeConfigValidate config with
  | .error _ => .error .einval
  | .ok _ => .ok (joinBytes config)

/-- `rpc_decode_join_payload`. -/
def rpcDecodeJoinPayload (payload : List UInt8) : Except Errno NodeConfig :=
  if payload.length ≠ joinPayloadWireSize then .error .einval
  else match gossipAddress (payload.take nodeAddressSize) with
    | none => .error .einval
    | some ip => nodeConfigInitWithUuid ip (wireGetU16 (payload.drop nodeAddressSize))
        (Octets.read nodeUuidSize (payload.drop (nodeAddressSize + 2)))

/-- A configuration as `node_config_init_with_uuid` builds it, from which an identity can be
computed. -/
structure UsableConfig (config : NodeConfig) (id : NodeID) : Prop where
  built : ∃ ip port uuid, nodeConfigInitWithUuid ip port uuid = .ok config
  computed : nodeComputeId config = .ok id

omit [Sha256] in
/-- What `node_config_init_with_uuid` has normalised stays as it is. -/
theorem nodeConfigInitWithUuid_self [NormalizingInet] {ip : List UInt8} {port : UInt16}
    {uuid : Octets nodeUuidSize} {config : NodeConfig}
    (built : nodeConfigInitWithUuid ip port uuid = .ok config) :
    0 ∉ config.ip ∧
      nodeConfigInitWithUuid config.ip config.port config.uuid = .ok config := by
  unfold nodeConfigInitWithUuid at built
  split at built
  · cases built
  · rename_i usable
    cases normal : normalizeIp ip with
    | error code =>
      rw [normal] at built
      cases built
    | ok normalized =>
      rw [normal] at built
      cases built
      have again := NormalizingInet.idempotent normal
      refine ⟨NormalizingInet.text again, ?_⟩
      rw [nodeConfigInitWithUuid, if_neg usable, again]

variable {config : NodeConfig} {id : NodeID}

theorem UsableConfig.encodes (usable : UsableConfig config id) :
    rpcEncodeJoinPayload config = .ok (joinBytes config) := by
  have computed := usable.computed
  rw [nodeComputeId] at computed
  rw [rpcEncodeJoinPayload]
  cases valid : nodeConfigValidate config with
  | error code =>
    rw [valid] at computed
    cases computed
  | ok _ => rfl

/-- The descriptor of a node is read as it was written. -/
theorem UsableConfig.decodes [NormalizingInet] (usable : UsableConfig config id) :
    rpcDecodeJoinPayload (joinBytes config) = .ok config := by
  obtain ⟨ip, port, uuid, built⟩ := usable.built
  obtain ⟨text, again⟩ := nodeConfigInitWithUuid_self built
  obtain ⟨-, short, -, -⟩ := nodeComputeId_eq_ok.mp usable.computed
  have afterAddress := drop_append_drop (joinBytes config) List.drop_zero
    (Octets.length_toList (Octets.read nodeAddressSize config.ip))
  have afterPort := drop_append_drop _ afterAddress (length_wirePutU16 config.port)
  rw [Nat.zero_add] at afterAddress afterPort
  have address : (joinBytes config).take nodeAddressSize =
      (Octets.read nodeAddressSize config.ip).toList :=
    List.take_left' (Octets.length_toList _)
  have identity : Octets.read nodeUuidSize config.uuid.toList = config.uuid := Octets.read_toList _
  rw [rpcDecodeJoinPayload, if_neg (not_not.mpr (length_joinBytes config)), address,
    gossipAddress_read text short, afterAddress, afterPort, wireGetU16_wirePutU16, identity]
  exact again

end Join

end SuperPeerNet
