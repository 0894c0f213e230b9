/-
This file settles whether what is committed can be applied.

The service is the cluster together with the handler of `M_STORE` messages. Any message
may arrive at any super peer at any time, so a forwarded announcement needs no treatment
of its own. An announcement is committed on the strength of its first byte and decoded
only when it is applied. The entries of every log can be applied in order when the
announcements that are submitted are well formed and agree with those that are proposed
already: nothing else gets into a log.
-/

import SuperPeerNet.Catalogue.Publication
import SuperPeerNet.Cluster.Proposed
import SuperPeerNet.Service.Store

namespace SuperPeerNet

variable [Zlib]

/-! ### The service -/

/-- The super peers of a run with their storages. -/
structure Service (Storage : Type) where
  system : System
  storage : NodeID → Storage

/-- A step of the service: an `M_STORE` message is handled, or the cluster takes a step. -/
inductive ServiceAction where
  | store (node : NodeID) (message : Message) (generated : TransactionId)
  | cluster (action : Action)

/-- What `handle_client` has checked of a message before `handle_client_store`. -/
def storeAccepted (node : NodeID) (message : Message) : Bool :=
  message.messageType = .store && message.sourceNode ≠ zeroNodeId && message.destinationNode = node

/-- Only the handlers submit. -/
def Action.isSubmit : Action → Bool
  | .submit _ _ _ _ => true
  | _ => false

variable {Storage : Type}

/-- What becomes of a message at a node. -/
def Service.handled (api : StorageApi Storage) (service : Service Storage) (node : NodeID)
    (message : Message) (generated : TransactionId) : Storage × StoreOutcome :=
  handleClientStore api generated (service.storage node) (service.system.cluster node) message

/-- The state that an action leads to, if it can be taken. A submission that the cluster refuses
still leaves the storage changed. -/
def Service.step (api : StorageApi Storage) (service : Service Storage) :
    ServiceAction → Option (Service Storage)
  | .store node message generated =>
    if storeAccepted node message then
      let handled := service.handled api node message generated
      let stored : Service Storage :=
        { service with storage := Function.update service.storage node handled.1 }
      match handled.2 with
      | .submit id owner payload =>
        match service.system.step (.submit node id owner payload) with
        | some system => some { stored with system := system }
        | none => some stored
      | .forward _ => some stored
      | .returned _ => some stored
    else none
  | .cluster action =>
    if action.isSubmit then none
    else (service.system.step action).map fun system => { service with system := system }

/-! ### The condition -/

/-- An operation announces a document acceptably, and agrees with every operation that is
proposed already. -/
def Welcome (system : System) (operation : List UInt8) : Prop :=
  ∃ publication, publicationOf operation = .ok publication ∧ publication.Acceptable ∧
    ∀ other earlier, Proposed system other → publicationOf other = .ok earlier →
      earlier.Agrees publication

/-- What a step of the cluster submits is welcome. -/
def SubmitsWelcome (system : System) (action : Action) : Prop :=
  ∀ operation, system.Submits action operation → Welcome system operation

/-- What the handling of a message submits is welcome. -/
def StoresWelcome (api : StorageApi Storage) (service : Service Storage) : ServiceAction → Prop
  | .store node message generated => ∀ id owner payload task,
      (service.handled api node message generated).2 = .submit id owner payload →
      c4ClusterSubmit (service.system.cluster node) id owner payload = .ok task →
      Welcome service.system (c4Operation owner payload)
  | .cluster _ => True

section Runs

variable {api : StorageApi Storage} {start service : Service Storage}
  {allowed : Service Storage → ServiceAction → Prop}

/-- A run of the service is a run of the cluster, in which the submissions are those that
handled messages have led to. -/
theorem reaches_system {permitted : System → Action → Prop}
    (submits : ∀ (service : Service Storage) node message generated id owner payload,
      allowed service (.store node message generated) →
      (service.handled api node message generated).2 = .submit id owner payload →
      permitted service.system (.submit node id owner payload))
    (others : ∀ (service : Service Storage) (action : Action), action.isSubmit = false →
      permitted service.system action)
    (reached : Transition.Reaches (Service.step api) allowed start service) :
    Transition.Reaches System.step permitted start.system service.system := by
  induction reached with
  | refl => exact .refl
  | @tail service next _ action isAllowed stepped inductionHypothesis =>
    cases action with
    | store node message generated =>
      simp only [Service.step] at stepped
      split at stepped
      · split at stepped
        · rename_i id owner payload isSubmit
          split at stepped
          · rename_i system taken
            cases stepped
            exact .tail inductionHypothesis _
              (submits service node message generated id owner payload isAllowed isSubmit) taken
          · cases stepped
            exact inductionHypothesis
        · cases stepped
          exact inductionHypothesis
        · cases stepped
          exact inductionHypothesis
      · cases stepped
    | cluster action =>
      simp only [Service.step] at stepped
      split at stepped
      · cases stepped
      · rename_i notSubmit
        obtain ⟨system, taken, same⟩ := Option.map_eq_some_iff.mp stepped
        subst same
        exact .tail inductionHypothesis action
          (others service action (Bool.eq_false_iff.mpr notSubmit)) taken

/-- Whatever is handled, a log of the service has come about by changes of a fresh log. -/
theorem changes_of_reaches (initial : start.system.Initial)
    (reached : Transition.Reaches (Service.step api) allowed start service) (node : NodeID) :
    C4Log.Changes C4Log.fresh (service.system.log node) := by
  have inSystem : Transition.Reaches System.step (fun _ _ => True) start.system service.system :=
    reaches_system (fun _ _ _ _ _ _ _ _ _ => trivial) (fun _ _ _ => trivial) reached
  refine @Transition.Reaches.invariant _ _ System.step _ _
    (fun system => C4Log.Changes C4Log.fresh (system.log node)) ?_ ?_ _ inSystem
  · rw [System.log, initial.log]
  · intro system action next changes _ stepped
    exact changes.trans (System.grows_of_step (systemStep_of_step stepped) node).log

end Runs

/-! ### The invariant -/

/-- The announcements that are proposed. -/
def Announced (system : System) (publication : Publication) : Prop :=
  ∃ operation, Proposed system operation ∧ publicationOf operation = .ok publication

/-- Everything that is proposed is an acceptable announcement, and all of them agree. -/
structure Coherent (system : System) : Prop where
  announces : ∀ operation, Proposed system operation →
    ∃ publication, publicationOf operation = .ok publication ∧ publication.Acceptable
  agree : ∀ first second, Announced system first → Announced system second → first.Agrees second
  own : PreparesOwn system

omit [Zlib] in
theorem coherent_initial {system : System} (initial : system.Initial) : Coherent system where
  announces operation proposed := absurd proposed (not_proposed_initial initial operation)
  agree first second announced := by
    obtain ⟨operation, proposed, -⟩ := announced
    exact absurd proposed (not_proposed_initial initial operation)
  own := preparesOwn_initial initial

theorem Coherent.step {system next : System} {action : Action} (coherent : Coherent system)
    (vouched : Vouched system) (welcome : SubmitsWelcome system action)
    (step : SystemStep system action next) : Coherent next where
  announces operation proposed := by
    rcases proposed_of_step vouched coherent.own step proposed with old | submitted
    · exact coherent.announces operation old
    · obtain ⟨publication, decoded, acceptable, -⟩ := welcome operation submitted
      exact ⟨publication, decoded, acceptable⟩
  agree := by
    rintro first second ⟨operation, proposed, decoded⟩ ⟨other, alsoProposed, alsoDecoded⟩
    rcases proposed_of_step vouched coherent.own step proposed with old | submitted
    · rcases proposed_of_step vouched coherent.own step alsoProposed with alsoOld | submitted
      · exact coherent.agree first second ⟨operation, old, decoded⟩ ⟨other, alsoOld, alsoDecoded⟩
      · obtain ⟨publication, isDecoded, -, agrees⟩ := welcome other submitted
        cases alsoDecoded.symm.trans isDecoded
        exact agrees operation first old decoded
    · obtain ⟨publication, isDecoded, -, agrees⟩ := welcome operation submitted
      cases decoded.symm.trans isDecoded
      rcases proposed_of_step vouched coherent.own step alsoProposed with alsoOld | alsoSubmitted
      · exact (agrees other second alsoOld alsoDecoded).symm
      · -- One action submits one operation.
        obtain ⟨_, _, _, _, _, same, -, rfl⟩ := submitted
        obtain ⟨_, _, _, _, _, alsoSame, -, rfl⟩ := alsoSubmitted
        cases same.symm.trans alsoSame
        cases decoded.symm.trans alsoDecoded
        exact .refl first
  own := coherent.own.step step

omit [Zlib] in
/-- The entries of a log can be applied in order. -/
theorem Coherent.applies {system : System} (coherent : Coherent system) (node : NodeID) :
    Applies applyC4Entry MetadataStore.empty (system.log node).entries := by
  refine @applies_of_agree (Announced system) MetadataStore.empty ?_ ?_ coherent.agree _ ?_
  · intro id entry found
    cases found
  · rintro publication ⟨operation, proposed, decoded⟩
    obtain ⟨other, sameDecoded, acceptable⟩ := coherent.announces operation proposed
    cases decoded.symm.trans sameDecoded
    exact ⟨Publication.decoded_of_publicationOf decoded, acceptable⟩
  · intro entry member
    have proposed : Proposed system entry.payload := .committed node entry member rfl
    obtain ⟨publication, decoded, -⟩ := coherent.announces entry.payload proposed
    exact ⟨publication, ⟨entry.payload, proposed, decoded⟩, decoded⟩

/-- On the files of a log of a run that a restart restores, `c4_cluster_create` succeeds exactly
when the entries can be applied in order. -/
theorem c4ClusterCreate_of_changes {log : C4Log} (changes : C4Log.Changes C4Log.fresh log)
    (replayable : log.Replayable) (node : NodeID) (members : List SuperPeerMember) :
    (∃ cluster, c4ClusterCreate node members applyC4Entry MetadataStore.empty log.file log.journal =
      .ok cluster) ↔ Applies applyC4Entry MetadataStore.empty log.entries := by
  refine c4ClusterCreate_iff node members applyC4Entry MetadataStore.empty
    ((C4Log.restores_of_changes changes).mpr replayable) ?_
  have bound := (changes.valid C4Log.valid_fresh).entries.bounded
  unfold entryCapacity at bound
  omega

/-! ### Runs of the service -/

/-- In every run in which the submitted announcements are well formed and agree with what is
proposed, the committed entries of every node are accepted one after the other by
`apply_c4_entry`, and `c4_cluster_create` succeeds on the files of every log that a restart
restores. -/
theorem committed_applies (api : StorageApi Storage) {start service : Service Storage}
    (initial : start.system.Initial)
    (reached : Transition.Reaches (Service.step api) (StoresWelcome api) start service)
    (node : NodeID) :
    Applies applyC4Entry MetadataStore.empty (service.system.log node).entries ∧
      ((service.system.log node).Replayable → ∀ members, ∃ cluster,
        c4ClusterCreate node members applyC4Entry MetadataStore.empty
          (service.system.log node).file (service.system.log node).journal = .ok cluster) := by
  have inSystem : Transition.Reaches System.step SubmitsWelcome start.system service.system := by
    refine reaches_system ?_ ?_ reached
    · rintro service node message generated id owner payload welcome isSubmit operation
        ⟨_, _, _, _, task, same, accepted, rfl⟩
      cases same
      exact welcome id owner payload task isSubmit accepted
    · rintro service action other operation ⟨_, _, _, _, _, rfl, -⟩
      cases other
  have coherent := (invariant_of_vouched initial (coherent_initial initial)
    (fun _ _ _ vouched coherent welcome step => coherent.step vouched welcome step) inSystem).2
  have applies := coherent.applies node
  refine ⟨applies, fun replayable members => ?_⟩
  exact (c4ClusterCreate_of_changes (changes_of_reaches initial reached node) replayable node
    members).mpr applies

/-- One super peer, the coordinator, at which one peer is registered. -/
def singleStart : Service Unit where
  system :=
    { startOf [] (nodeOf 1) with
      cluster := fun node =>
        { (startOf [] (nodeOf 1)).cluster node with members := [⟨nodeOf 9, .peer, .alive, true⟩] } }
  storage _ := ()

omit [Zlib] in
theorem initial_singleStart : singleStart.system.Initial :=
  ⟨fun _ => rfl, fun _ => rfl, fun _ => rfl, rfl, rfl⟩

/-- The registered peer announces. -/
def announceAction (payload : List UInt8) : ServiceAction :=
  .store (nodeOf 1) (requestOf 9 1 .store (transactionOf 1) payload) (transactionOf 0)

/-- The announcement of a document of three bytes in one chunk. -/
def smallAnnouncement : List UInt8 :=
  transferStoreAnnounce :: (Octets.fill objectIdSize 7).toList ++ wirePutU64 3 ++ wirePutU64 1 ++
    [compressionLz4] ++ wirePutU16 5 ++ [97, 46, 112, 100, 102] ++
    encodeDescriptor ⟨0, 0, 3, 1, Octets.fill objectIdSize 8⟩

/-- What it announces. -/
def smallPublication : Publication where
  owner := nodeOf 9
  document := ⟨Octets.fill objectIdSize 7, [97, 46, 112, 100, 102], 3, 1, compressionLz4⟩
  chunks := [⟨0, 0, 3, 1, Octets.fill objectIdSize 8⟩]

/-- The steps of the cluster alone. -/
def ServiceAction.isCluster : ServiceAction → Bool
  | .store _ _ _ => false
  | .cluster _ => true

/-- The log of the super peer after the peer has announced and the task that submits its
operation has run to its end. -/
def announcedLog (payload : List UInt8) : Option C4Log :=
  ((singleStart.step emptyStorage (announceAction payload)).bind fun first =>
    Transition.run (Transition.guarded (Service.step emptyStorage) fun _ action => action.isCluster)
      first (List.replicate 7 (.cluster (runTask 0)))).map fun last => last.system.log (nodeOf 1)

/-- The operation has been committed, and it is the only one. -/
def CommittedAlone (payload : List UInt8) (log : C4Log) : Prop :=
  log.entries.map C4LogEntry.payload = [c4Operation (nodeOf 9) payload] ∧
    log.transactions = log.entries.map fun entry => ⟨entry, .committed⟩

instance (payload : List UInt8) (log : C4Log) : Decidable (CommittedAlone payload log) :=
  inferInstanceAs (Decidable (_ ∧ _))

/-- An announcement that is allowed is committed. -/
theorem reaches_announced {allowed : Service Unit → ServiceAction → Prop} {payload : List UInt8}
    (checked : (announcedLog payload).any (fun log => CommittedAlone payload log) = true)
    (announces : allowed singleStart (announceAction payload))
    (steps : ∀ service action, allowed service (.cluster action)) :
    ∃ service, Transition.Reaches (Service.step emptyStorage) allowed singleStart service ∧
      CommittedAlone payload (service.system.log (nodeOf 1)) := by
  obtain ⟨log, done, holds⟩ := (Option.any_eq_true _ _).mp checked
  obtain ⟨last, ran, isLog⟩ := Option.map_eq_some_iff.mp done
  obtain ⟨first, stepped, later⟩ := Option.bind_eq_some_iff.mp ran
  refine ⟨last, ?_, isLog ▸ of_decide_eq_true holds⟩
  refine (Transition.Reaches.refl.tail _ announces stepped).of_run (fun service action guard => ?_)
    later
  cases action with
  | store node message generated => cases guard
  | cluster action => exact steps service action

omit [Zlib] in
theorem CommittedAlone.entries {payload : List UInt8} {log : C4Log}
    (alone : CommittedAlone payload log) : ∃ entry, log.entries = [entry] ∧
      entry.payload = c4Operation (nodeOf 9) payload ∧
      log.transactions = [⟨entry, .committed⟩] := by
  obtain ⟨payloads, table⟩ := alone
  obtain ⟨entry, entries, same⟩ := List.map_eq_singleton_iff.mp payloads
  rw [entries] at table
  exact ⟨entry, entries, same, table⟩

omit [Zlib] in
theorem CommittedAlone.replayable {payload : List UInt8} {log : C4Log}
    (alone : CommittedAlone payload log) : log.Replayable := by
  obtain ⟨entry, entries, -, table⟩ := alone.entries
  intro id row found _
  have member := KeyedList.lookup_mem found
  rw [table, List.mem_singleton] at member
  subst member
  refine Or.inl ?_
  rw [entries, KeyedList.lookup_singleton]
  exact if_pos rfl

omit [Zlib] in
/-- A small announcement is committed, and the cluster can be created from its log again. -/
theorem committed_applies_small :
    letI := Zlib.reference
    ∃ service, Transition.Reaches (Service.step emptyStorage) (StoresWelcome emptyStorage)
        singleStart service ∧
      CommittedAlone smallAnnouncement (service.system.log (nodeOf 1)) ∧
      Applies applyC4Entry MetadataStore.empty (service.system.log (nodeOf 1)).entries ∧
      ∃ cluster, c4ClusterCreate (nodeOf 1) [] applyC4Entry MetadataStore.empty
        (service.system.log (nodeOf 1)).file (service.system.log (nodeOf 1)).journal =
          .ok cluster := by
  let zlib := Zlib.reference
  have welcome : StoresWelcome emptyStorage singleStart (announceAction smallAnnouncement) := by
    intro id owner payload task submitted _
    have direct : (singleStart.handled emptyStorage (nodeOf 1)
        (requestOf 9 1 .store (transactionOf 1) smallAnnouncement) (transactionOf 0)).2 =
          .submit (transactionOf 1) (nodeOf 9) smallAnnouncement :=
      handleClientStore_direct (by decide)
        (show superpeerFindMember _ _ = .ok ⟨nodeOf 9, .peer, .alive, true⟩ by decide +kernel)
        rfl (by decide +kernel) rfl
    cases direct.symm.trans submitted
    refine ⟨smallPublication, by decide +kernel, by decide +kernel, ?_⟩
    intro other earlier proposed
    exact absurd proposed (not_proposed_initial initial_singleStart other)
  obtain ⟨service, reached, alone⟩ := reaches_announced (by decide +kernel) welcome
    fun _ _ => trivial
  obtain ⟨applies, created⟩ := committed_applies emptyStorage initial_singleStart reached (nodeOf 1)
  exact ⟨service, reached, alone, applies, created alone.replayable []⟩

/-- The messages that are handled come from registered peers. -/
def FromRegistered (service : Service Storage) : ServiceAction → Prop
  | .store node message _ =>
    superpeerIsRegistered (service.system.cluster node).members message.sourceNode = true
  | .cluster _ => True

omit [Zlib] in
/-- The first byte alone is committed, and the cluster cannot be created again. -/
theorem not_committed_applies :
    letI := Zlib.reference
    ∃ service, Transition.Reaches (Service.step emptyStorage) FromRegistered singleStart service ∧
      (¬ Applies applyC4Entry MetadataStore.empty
        (service.system.log (nodeOf 1)).entries) ∧
      ¬ ∃ cluster, c4ClusterCreate (nodeOf 1) [] applyC4Entry MetadataStore.empty
        (service.system.log (nodeOf 1)).file (service.system.log (nodeOf 1)).journal =
          .ok cluster := by
  let zlib := Zlib.reference
  have registered : FromRegistered singleStart (announceAction [5]) := by
    show superpeerIsRegistered _ _ = true
    decide +kernel
  obtain ⟨service, reached, alone⟩ := reaches_announced (by decide +kernel) registered
    fun _ _ => trivial
  have refused : ¬ Applies applyC4Entry MetadataStore.empty
      (service.system.log (nodeOf 1)).entries := by
    obtain ⟨entry, entries, payload, -⟩ := alone.entries
    have undecoded : publicationOf (c4Operation (nodeOf 9) [5]) = .error .ebadmsg := by
      decide +kernel
    rw [entries]
    rintro ⟨accepted, -⟩
    rw [applyC4Entry_eq, payload, undecoded] at accepted
    cases accepted
  refine ⟨service, reached, refused, ?_⟩
  rw [c4ClusterCreate_of_changes (changes_of_reaches initial_singleStart reached (nodeOf 1))
    alone.replayable]
  exact refused

end SuperPeerNet
