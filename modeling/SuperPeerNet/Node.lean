/-
This file models the part of `node.c` that gossip goes through: the configuration of a
node, its identity, the check of a received node, and the comparison of identities.

The textual addresses are the business of the system's `inet_pton` and `inet_ntop`,
which are parameters, as is the id of the running process.
-/

import SuperPeerNet.Content
import SuperPeerNet.Membership

namespace SuperPeerNet

/-! ### The system -/

/-- The address functions of the system. A textual address is the bytes of a C string. -/
class Inet where
  /-- `inet_pton(AF_INET, ip, …)`, the four bytes of an address. -/
  pton4 : List UInt8 → Option (List UInt8)
  /-- `inet_ntop(AF_INET, …)`. -/
  ntop4 : List UInt8 → List UInt8
  /-- `inet_pton(AF_INET6, ip, …)`, the sixteen bytes of an address. -/
  pton6 : List UInt8 → Option (List UInt8)
  /-- `inet_ntop(AF_INET6, …)`. -/
  ntop6 : List UInt8 → List UInt8

namespace Inet

/-- One part of a dotted address: at most three digits, without a leading zero. -/
def decimalPart (digits : List UInt8) : Option UInt8 :=
  let value := digits.foldl (fun value digit => value * 10 + (digit.toNat - 48)) 0
  if digits = [] ∨ digits.length > 3 ∨ digits.any (fun digit => digit < 48 || digit > 57) ∨
      (digits.length > 1 ∧ digits.head? = some 48) ∨ value > 255 then none
  else some (UInt8.ofNat value)

/-- The address functions as they are documented for IPv4, for use at concrete inputs that are
not IPv6 addresses. -/
@[reducible] def reference : Inet where
  pton4 ip :=
    let parts := ip.splitOn 46
    if parts.length = 4 then parts.mapM decimalPart else none
  ntop4 address := List.intercalate [46]
    (address.map fun byte => (Nat.toDigits 10 byte.toNat).map fun digit => UInt8.ofNat digit.toNat)
  pton6 _ := none
  ntop6 _ := []

end Inet

/-- `getpid()`. A process id is positive. -/
class Process where
  pid : Nat
  positive : 0 < pid

/-- The first process of a system, for use at concrete inputs. -/
@[reducible] def Process.first : Process := ⟨1, Nat.one_pos⟩

/-! ### Nodes -/

/-- `NODE_ADDRESS_SIZE`, which is `INET6_ADDRSTRLEN`. -/
def nodeAddressSize : Nat := 46

/-- `NODE_UUID_SIZE`. -/
def nodeUuidSize : Nat := 16

/-- `NodeConfig`. -/
structure NodeConfig where
  ip : List UInt8
  port : UInt16
  uuid : Octets nodeUuidSize
  deriving DecidableEq

/-- `Node`. -/
structure Node where
  id : NodeID
  config : NodeConfig
  processId : Nat
  role : NodeRole
  deriving DecidableEq

section Identity

variable [Inet] [Sha256]

/-- `normalize_ip`. -/
def normalizeIp (ip : List UInt8) : Except Errno (List UInt8) :=
  if ip = [] then .error .einval
  else match Inet.pton4 ip with
    | some address => .ok (Inet.ntop4 address)
    | none => match Inet.pton6 ip with
      | some address => .ok (Inet.ntop6 address)
      | none => .error .einval

/-- `node_config_validate`. -/
def nodeConfigValidate (config : NodeConfig) : Except Errno Unit :=
  if config.port = 0 ∨ config.ip.length ≥ nodeAddressSize then .error .einval
  else match normalizeIp config.ip with
    | .error code => .error code
    | .ok _ => .ok ()

/-- `node_config_init_with_uuid`. -/
def nodeConfigInitWithUuid (ip : List UInt8) (port : UInt16) (uuid : Octets nodeUuidSize) :
    Except Errno NodeConfig :=
  if port = 0 then .error .einval
  else match normalizeIp ip with
    | .error code => .error code
    | .ok normalized => .ok ⟨normalized, port, uuid⟩

/-- `node_compute_id`: the digest of the binary address, the port in network order and the
UUID. -/
def nodeComputeId (config : NodeConfig) : Except Errno NodeID :=
  match nodeConfigValidate config with
  | .error code => .error code
  | .ok _ => match (Inet.pton4 config.ip).or (Inet.pton6 config.ip) with
    | none => .error .einval
    | some address => .ok (Sha256.digest (address ++ wirePutU16 config.port ++ config.uuid.toList))

/-- `node_init`. -/
def nodeInit [Process] (config : NodeConfig) : Except Errno Node :=
  match nodeComputeId config with
  | .error code => .error code
  | .ok id => .ok ⟨id, config, Process.pid, .peer⟩

/-- `node_validate`. -/
def nodeValidate (node : Node) : Except Errno Unit :=
  if node.processId = 0 then .error .einval
  else match nodeComputeId node.config with
    | .error _ => .error .einval
    | .ok expected => if node.id = expected then .ok () else .error .einval

/-- An initialised node passes the check under any role. -/
theorem nodeValidate_of_nodeInit [Process] {config : NodeConfig} {node : Node}
    (initialised : nodeInit config = .ok node) (role : NodeRole) :
    nodeValidate { node with role := role } = .ok () := by
  unfold nodeInit at initialised
  cases computed : nodeComputeId config with
  | error code =>
    rw [computed] at initialised
    cases initialised
  | ok id =>
    rw [computed] at initialised
    cases initialised
    rw [nodeValidate, if_neg (Nat.ne_of_gt Process.positive)]
    simp only [computed, if_true]

/-- What the check of a node establishes. -/
theorem nodeComputeId_of_nodeValidate {node : Node} (valid : nodeValidate node = .ok ()) :
    nodeComputeId node.config = .ok node.id := by
  unfold nodeValidate at valid
  split at valid
  · cases valid
  · cases computed : nodeComputeId node.config with
    | error code => simp only [computed, reduceCtorEq] at valid
    | ok expected =>
      simp only [computed] at valid
      split at valid
      · rename_i same
        rw [same]
      · cases valid

/-- What a computed identity says about its configuration. -/
theorem nodeComputeId_eq_ok {config : NodeConfig} {id : NodeID} :
    nodeComputeId config = .ok id ↔ config.port ≠ 0 ∧ config.ip.length < nodeAddressSize ∧
      (∃ normalized, normalizeIp config.ip = .ok normalized) ∧
      ∃ address, (Inet.pton4 config.ip).or (Inet.pton6 config.ip) = some address ∧
        Sha256.digest (address ++ wirePutU16 config.port ++ config.uuid.toList) = id := by
  unfold nodeComputeId nodeConfigValidate
  by_cases usable : config.port = 0 ∨ config.ip.length ≥ nodeAddressSize
  · rw [if_pos usable]
    simp only [reduceCtorEq, false_iff]
    rintro ⟨port, size, -⟩
    rcases usable with zero | long
    · exact port zero
    · exact absurd size (Nat.not_lt.mpr long)
  · rw [if_neg usable]
    obtain ⟨port, size⟩ := not_or.mp usable
    have short : config.ip.length < nodeAddressSize := Nat.lt_of_not_le size
    cases normalizeIp config.ip with
    | error code => simp
    | ok normalized =>
      cases (Inet.pton4 config.ip).or (Inet.pton6 config.ip) with
      | none => simp
      | some address =>
        constructor
        · intro same
          cases same
          exact ⟨port, short, ⟨normalized, rfl⟩, address, rfl, rfl⟩
        · rintro ⟨-, -, -, other, same, rfl⟩
          cases same
          rfl

end Identity

/-! ### What the code relies on -/

/-- A textual address that the system accepts is a C string, and writing the address out again
gives a text that is its own normal form. -/
class NormalizingInet [Inet] : Prop where
  text : ∀ {ip normalized : List UInt8}, normalizeIp ip = .ok normalized → 0 ∉ ip
  idempotent : ∀ {ip normalized : List UInt8}, normalizeIp ip = .ok normalized →
    normalizeIp normalized = .ok normalized

/-- A normal form also fits its buffer and stands for the same binary address. -/
class LawfulInet [Inet] : Prop extends NormalizingInet where
  size : ∀ {ip normalized : List UInt8}, normalizeIp ip = .ok normalized →
    normalized.length < nodeAddressSize
  address : ∀ {ip normalized : List UInt8}, normalizeIp ip = .ok normalized →
    (Inet.pton4 normalized).or (Inet.pton6 normalized) = (Inet.pton4 ip).or (Inet.pton6 ip)

namespace Inet

/-- The digits of a byte, as `ntop4` writes them. -/
def byteDigits (byte : UInt8) : List UInt8 :=
  (Nat.toDigits 10 byte.toNat).map fun digit => UInt8.ofNat digit.toNat

/-- The digits of every byte are read back, and they are at most three decimal digits. -/
theorem decimalPart_byteDigits (byte : UInt8) :
    decimalPart (byteDigits byte) = some byte ∧ (byteDigits byte).length ≤ 3 ∧
      46 ∉ byteDigits byte := by
  have all : ∀ number < 256, decimalPart (byteDigits (UInt8.ofNat number)) =
      some (UInt8.ofNat number) ∧ (byteDigits (UInt8.ofNat number)).length ≤ 3 ∧
      46 ∉ byteDigits (UInt8.ofNat number) := by decide +kernel
  have checked := all byte.toNat byte.toNat_lt
  rwa [UInt8.ofNat_toNat] at checked

theorem zero_notMem_of_decimalPart {digits : List UInt8} {byte : UInt8}
    (read : decimalPart digits = some byte) : 0 ∉ digits := by
  intro zero
  have low : digits.any (fun digit => digit < 48 || digit > 57) = true :=
    List.any_eq_true.mpr ⟨0, zero, by decide⟩
  unfold decimalPart at read
  simp only [low, true_or, or_true, if_true] at read
  cases read

theorem mapM_decimalPart {parts : List (List UInt8)} {address : List UInt8}
    (read : parts.mapM decimalPart = some address) :
    parts.length = address.length ∧ ∀ part ∈ parts, 0 ∉ part := by
  induction parts generalizing address with
  | nil =>
    cases read
    exact ⟨rfl, fun _ member => by cases member⟩
  | cons part rest inductionHypothesis =>
    rw [List.mapM_cons] at read
    obtain ⟨byte, first, later⟩ := Option.bind_eq_some_iff.mp read
    obtain ⟨bytes, others, same⟩ := Option.bind_eq_some_iff.mp later
    cases same
    obtain ⟨length, texts⟩ := inductionHypothesis others
    refine ⟨by rw [List.length_cons, List.length_cons, length], ?_⟩
    intro text member
    rcases List.mem_cons.mp member with rfl | inRest
    · exact zero_notMem_of_decimalPart first
    · exact texts text inRest

theorem mapM_byteDigits (address : List UInt8) :
    (address.map byteDigits).mapM decimalPart = some address := by
  induction address with
  | nil => rfl
  | cons byte rest inductionHypothesis =>
    rw [List.map_cons, List.mapM_cons, (decimalPart_byteDigits byte).1, inductionHypothesis]
    rfl

/-- The documented functions read back the addresses that they write. -/
theorem reference_pton4_ntop4 {address : List UInt8} (size : address.length = 4) :
    reference.pton4 (reference.ntop4 address) = some address := by
  have parts : (reference.ntop4 address).splitOn 46 = address.map byteDigits := by
    refine List.splitOn_intercalate 46 ?_ ?_
    · intro part member
      obtain ⟨byte, -, rfl⟩ := List.mem_map.mp member
      exact (decimalPart_byteDigits byte).2.2
    · intro empty
      have none := congrArg List.length empty
      rw [List.length_map, size] at none
      cases none
  show (if ((reference.ntop4 address).splitOn 46).length = 4 then
    ((reference.ntop4 address).splitOn 46).mapM decimalPart else none) = some address
  rw [parts, List.length_map, if_pos size, mapM_byteDigits]

/-- A byte of joined texts that is not the separator is a byte of one of the texts. -/
theorem exists_mem_of_mem_intercalate {separator byte : UInt8} {parts : List (List UInt8)}
    (member : byte ∈ [separator].intercalate parts) (other : byte ≠ separator) :
    ∃ part ∈ parts, byte ∈ part := by
  induction parts with
  | nil => cases member
  | cons head rest inductionHypothesis =>
    cases rest with
    | nil =>
      rw [List.intercalate_singleton] at member
      exact ⟨head, List.mem_cons_self, member⟩
    | cons second others =>
      rw [List.intercalate_cons_cons, List.mem_append, List.mem_append,
        List.mem_singleton] at member
      rcases member with (here | dot) | later
      · exact ⟨head, List.mem_cons_self, here⟩
      · exact absurd dot other
      · obtain ⟨part, among, inPart⟩ := inductionHypothesis later
        exact ⟨part, List.mem_cons_of_mem _ among, inPart⟩

theorem reference_pton4_eq_some {ip address : List UInt8}
    (read : reference.pton4 ip = some address) : address.length = 4 ∧ 0 ∉ ip := by
  have split : (if (ip.splitOn 46).length = 4 then (ip.splitOn 46).mapM decimalPart else none) =
      some address := read
  by_cases four : (ip.splitOn 46).length = 4
  · rw [if_pos four] at split
    obtain ⟨length, texts⟩ := mapM_decimalPart split
    refine ⟨by rw [← length, four], fun zero => ?_⟩
    have joined : [46].intercalate (ip.splitOn 46) = ip := List.intercalate_splitOn 46
    rw [← joined] at zero
    obtain ⟨part, member, inPart⟩ := exists_mem_of_mem_intercalate zero (by decide)
    exact texts part member inPart
  · rw [if_neg four] at split
    cases split

theorem length_reference_ntop4 {address : List UInt8} (size : address.length = 4) :
    (reference.ntop4 address).length < nodeAddressSize := by
  obtain ⟨first, second, third, fourth, rfl⟩ := List.length_eq_four.mp size
  show (List.intercalate [46] ([first, second, third, fourth].map byteDigits)).length <
    nodeAddressSize
  have firstShort := (decimalPart_byteDigits first).2.1
  have secondShort := (decimalPart_byteDigits second).2.1
  have thirdShort := (decimalPart_byteDigits third).2.1
  have fourthShort := (decimalPart_byteDigits fourth).2.1
  simp only [List.map_cons, List.map_nil, List.intercalate_cons_cons, List.intercalate_singleton,
    List.length_append, List.length_singleton, nodeAddressSize]
  omega

theorem reference_normalizeIp {ip normalized : List UInt8}
    (normal : @normalizeIp reference ip = .ok normalized) :
    ∃ address, reference.pton4 ip = some address ∧ normalized = reference.ntop4 address := by
  unfold normalizeIp at normal
  split at normal
  · cases normal
  · split at normal
    · rename_i address read
      cases normal
      exact ⟨address, read, rfl⟩
    · cases normal

/-- The documented functions behave as the code relies on. -/
theorem reference_lawful : @LawfulInet reference := by
  let inet := reference
  have again : ∀ {ip normalized : List UInt8}, normalizeIp ip = .ok normalized →
      ∃ address, inet.pton4 ip = some address ∧ inet.pton4 normalized = some address ∧
        normalized = inet.ntop4 address := by
    intro ip normalized normal
    obtain ⟨address, read, rfl⟩ := reference_normalizeIp normal
    exact ⟨address, read, reference_pton4_ntop4 (reference_pton4_eq_some read).1, rfl⟩
  refine { text := ?_, idempotent := ?_, size := ?_, address := ?_ }
  · intro ip normalized normal
    obtain ⟨address, read, -⟩ := again normal
    exact (reference_pton4_eq_some read).2
  · intro ip normalized normal
    obtain ⟨address, -, read, written⟩ := again normal
    have nonempty : normalized ≠ [] := by
      rintro rfl
      cases (show inet.pton4 [] = none from rfl).symm.trans read
    rw [normalizeIp, if_neg nonempty]
    simp only [read]
    rw [written]
  · intro ip normalized normal
    obtain ⟨address, read, -, rfl⟩ := again normal
    exact length_reference_ntop4 (reference_pton4_eq_some read).1
  · intro ip normalized normal
    obtain ⟨address, read, same, -⟩ := again normal
    rw [read, same]
    rfl

end Inet

/-- A super peer at a port of the local machine. -/
def neighbour (port : UInt8) : Node where
  id := Sha256.reference.digest ([127, 0, 0, 1] ++ [0, port] ++ List.replicate 16 0)
  config := ⟨[49, 50, 55, 46, 48, 46, 48, 46, 49], port.toUInt16, Octets.read nodeUuidSize []⟩
  processId := 1
  role := .superPeer

/-! ### Comparing identities -/

/-- `memcmp` on byte strings of one length, as the sign of its result. -/
def memcmp : List UInt8 → List UInt8 → Ordering
  | [], _ => .eq
  | _, [] => .eq
  | left :: lefts, right :: rights =>
    if left < right then .lt else if right < left then .gt else memcmp lefts rights

/-- `node_id_compare`. -/
def nodeIdCompare (left right : NodeID) : Ordering := memcmp left.toList right.toList

/-- On byte strings of one length `memcmp` compares big-endian numbers. -/
theorem memcmp_eq_gt {left right : List UInt8} (length : left.length = right.length) :
    memcmp left right = .gt ↔ BigEndian.value right < BigEndian.value left := by
  induction left generalizing right with
  | nil =>
    rw [List.length_nil] at length
    rw [List.length_eq_zero_iff.mp length.symm]
    simp [memcmp]
  | cons head rest inductionHypothesis =>
    cases right with
    | nil => cases length
    | cons other others =>
      have restLength : rest.length = others.length := Nat.succ.inj length
      have restBound := BigEndian.value_lt rest
      have othersBound := BigEndian.value_lt others
      rw [← restLength] at othersBound
      rw [memcmp, BigEndian.value_cons, BigEndian.value_cons, ← restLength]
      rcases lt_trichotomy head.toNat other.toNat with below | same | above
      · have less : head < other := UInt8.lt_iff_toNat_lt.mpr below
        have scaled : (head.toNat + 1) * 256 ^ rest.length ≤ other.toNat * 256 ^ rest.length :=
          Nat.mul_le_mul_right _ below
        rw [if_pos less]
        constructor
        · intro greater
          cases greater
        · intro greater
          rw [Nat.add_mul, Nat.one_mul] at scaled
          omega
      · have equal : head = other := UInt8.toNat_inj.mp same
        subst equal
        rw [if_neg (UInt8.lt_irrefl _), if_neg (UInt8.lt_irrefl _), inductionHypothesis restLength]
        omega
      · have greater : other < head := UInt8.lt_iff_toNat_lt.mpr above
        have notLess : ¬ head < other := fun less =>
          absurd (UInt8.lt_iff_toNat_lt.mp less) (by omega)
        have scaled : (other.toNat + 1) * 256 ^ rest.length ≤ head.toNat * 256 ^ rest.length :=
          Nat.mul_le_mul_right _ above
        rw [if_neg notLess, if_pos greater]
        rw [Nat.add_mul, Nat.one_mul] at scaled
        exact ⟨fun _ => by omega, fun _ => rfl⟩

end SuperPeerNet
