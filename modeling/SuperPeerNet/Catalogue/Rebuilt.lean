/-
This file shows that announcing again what has been announced rebuilds the catalogue.

Announcements of one document all have its content, so they are accepted in any table that holds
nothing else. What a table knows of a document is then told by the announcements of it that it has
taken: the first gives the document, the last gives the descriptors. Announcing the whole sequence
again, to an empty table or to the table it built, has the same first and the same last.
-/

import SuperPeerNet.Catalogue.Publication
import SuperPeerNet.Catalogue.Refinement

namespace SuperPeerNet

/-! ### What a directory does -/

/-- A call of the directory. The array of an announcement has a descriptor for every chunk. -/
inductive DirectoryEvent where
  | announce (publication : Publication)
    (complete : publication.chunks.length = publication.document.chunkCount.toNat)
  | removePeer (peer : NodeID)

namespace DirectoryEvent

/-- The table after a call that succeeds. -/
def apply (store : MetadataStore) : DirectoryEvent → Option MetadataStore
  | .announce publication _ =>
    match directoryAnnounce store publication.document publication.chunks publication.owner with
    | (next, .ok ()) => some next
    | (_, .error _) => none
  | .removePeer peer => some (metadataRemovePeer store peer)

/-- The table after calls that all succeed. -/
def run (store : MetadataStore) : List DirectoryEvent → Option MetadataStore
  | [] => some store
  | event :: rest => (event.apply store).bind fun next => run next rest

/-- What a call announces. -/
def announced : DirectoryEvent → Option Publication
  | .announce publication _ => some publication
  | .removePeer _ => none

end DirectoryEvent

/-- The announcements of a sequence of calls. -/
def announcementsOf (events : List DirectoryEvent) : List Publication :=
  events.filterMap DirectoryEvent.announced

/-- The calls that announce, in their order. -/
def replayOf (events : List DirectoryEvent) : List DirectoryEvent :=
  events.filter fun event => event.announced.isSome

theorem announcementsOf_replayOf (events : List DirectoryEvent) :
    announcementsOf (replayOf events) = announcementsOf events := by
  induction events with
  | nil => rfl
  | cons event rest inductionHypothesis =>
    unfold announcementsOf replayOf at inductionHypothesis ⊢
    cases taken : event.announced with
    | none => simp [taken, inductionHypothesis]
    | some publication => simp [taken, inductionHypothesis]

/-- The pairs of the chunks and the owner of every announcement of a document. -/
def ownersOf (past : List Publication) (id : ObjectID) : Set (UInt64 × NodeID) :=
  {pair | ∃ publication ∈ past, publication.document.id = id ∧
    pair.1.toNat < publication.document.chunkCount.toNat ∧ pair.2 = publication.owner}

/-! ### Announcements in the map -/

namespace Publication

/-- What all announcements of a document have in common. -/
def content (publication : Publication) : UInt64 × List (UInt32 × Octets objectIdSize) :=
  (publication.document.fileSize,
    publication.chunks.map fun chunk => (chunk.rawSize, chunk.hash))

/-- An announcement that the directory and an empty table accept. -/
structure Valid (publication : Publication) : Prop where
  compression : publication.document.compression = compressionLz4
  pdf : endsInPdf publication.document.name = true
  countable : publication.document.chunkCount.toNat ≤ 2 ^ 32 - 1
  complete : publication.chunks.length = publication.document.chunkCount.toNat
  announcement : ValidAnnouncement publication.metadata publication.chunks

theorem Valid.count {publication : Publication} (valid : publication.Valid) :
    publication.metadata.chunkCount.toNat = publication.document.chunkCount.toNat := by
  have small := valid.countable
  show publication.document.chunkCount.toUInt32.toNat = _
  rw [UInt64.toNat_toUInt32, Nat.mod_eq_of_lt (by omega)]

/-- The number of chunks follows from the content. -/
theorem Valid.count_eq {first second : Publication} (firstValid : first.Valid)
    (secondValid : second.Valid) (same : first.document.fileSize = second.document.fileSize) :
    first.metadata.chunkCount = second.metadata.chunkCount := by
  refine UInt32.toNat_inj.mp ?_
  rw [firstValid.announcement.counted, secondValid.announcement.counted]
  exact congrArg chunksOf same

end Publication

/-- The map after an announcement that it accepts. -/
def Catalogue.after (catalogue : Catalogue) (publication : Publication) : Catalogue :=
  catalogue.write publication.document.id (some (match catalogue publication.document.id with
    | none => Holding.announced publication.metadata publication.chunks publication.owner
    | some known => known.merge publication.metadata publication.chunks publication.owner))

/-- The array has a descriptor for every chunk that the store counts. -/
theorem stored_complete {publication : Publication}
    (complete : publication.chunks.length = publication.document.chunkCount.toNat)
    (small : publication.document.chunkCount.toNat ≤ 2 ^ 32 - 1) :
    publication.chunks.length = publication.metadata.chunkCount.toNat := by
  show _ = publication.document.chunkCount.toUInt32.toNat
  rw [UInt64.toNat_toUInt32, Nat.mod_eq_of_lt (by omega), complete]

/-- The directory accepts a valid announcement that agrees with what is known. -/
theorem directoryAnnounce_accepts {store : MetadataStore} (wellFormed : store.WellFormed)
    {publication : Publication} (valid : publication.Valid)
    (agrees : ∀ known ∈ store.catalogue publication.document.id,
      known.Agrees publication.metadata publication.chunks) :
    ∃ next, directoryAnnounce store publication.document publication.chunks publication.owner =
      (next, .ok ()) ∧ next.WellFormed ∧ next.catalogue = store.catalogue.after publication := by
  have refined := announce_refines wellFormed publication.metadata publication.chunks
    publication.owner (stored_complete valid.complete valid.countable)
  have place : publication.metadata.objectId = publication.document.id := rfl
  have accepted : store.catalogue.announce publication.metadata publication.chunks
      publication.owner = (store.catalogue.after publication, .ok ()) := by
    unfold Catalogue.announce Catalogue.after
    rw [if_pos valid.announcement, place]
    cases known : store.catalogue publication.document.id with
    | none => rfl
    | some holding =>
      dsimp only
      rw [if_pos (agrees holding known)]
  rw [accepted] at refined
  unfold directoryAnnounce
  rw [if_neg (not_not.mpr valid.compression), if_neg (by simp [valid.pdf]),
    if_neg (not_lt.mpr valid.countable)]
  exact ⟨_, Prod.ext rfl refined.result, refined.wellFormed, refined.catalogue⟩

/-- The directory accepts nothing else. -/
theorem directoryAnnounce_accepted {store next : MetadataStore} (wellFormed : store.WellFormed)
    {publication : Publication}
    (complete : publication.chunks.length = publication.document.chunkCount.toNat)
    (done : directoryAnnounce store publication.document publication.chunks publication.owner =
      (next, .ok ())) :
    publication.Valid ∧ ∀ known ∈ store.catalogue publication.document.id,
      known.Agrees publication.metadata publication.chunks := by
  have place : publication.metadata.objectId = publication.document.id := rfl
  unfold directoryAnnounce at done
  split at done
  · cases done
  · rename_i compression
    split at done
    · cases done
    · rename_i pdf
      split at done
      · cases done
      · rename_i countable
        have refined := announce_refines wellFormed publication.metadata publication.chunks
          publication.owner (stored_complete complete (not_lt.mp countable))
        have accepted : (store.catalogue.announce publication.metadata publication.chunks
            publication.owner).2 = .ok () := refined.result.symm.trans (congrArg Prod.snd done)
        unfold Catalogue.announce at accepted
        by_cases valid : ValidAnnouncement publication.metadata publication.chunks
        · refine ⟨⟨not_not.mp compression, by simpa using pdf, not_lt.mp countable, complete,
            valid⟩, fun known found => ?_⟩
          rw [if_pos valid, place, found] at accepted
          by_contra differs
          dsimp only at accepted
          rw [if_neg differs] at accepted
          cases accepted
        · rw [if_neg valid] at accepted
          cases accepted

/-! ### What announcements leave behind -/

/-- The announcements of a document. -/
def announcementsFor (past : List Publication) (id : ObjectID) : List Publication :=
  past.filter fun publication => publication.document.id = id

/-- The document of the first announcement, with the descriptors of the last. -/
def publishedBy (past : List Publication) (id : ObjectID) :
    Option (FileMetadata × Option (List MetadataChunk)) :=
  match (announcementsFor past id).head?, (announcementsFor past id).getLast? with
  | some first, some last =>
    some ({ first.metadata with chunkHashes := some (last.chunks.map MetadataChunk.hash) },
      some last.chunks)
  | _, _ => none

/-- Announcements that are valid, and have the same content where they have the same document. -/
structure Unanimous (past : List Publication) : Prop where
  valid : ∀ publication ∈ past, publication.Valid
  same : ∀ first ∈ past, ∀ second ∈ past, first.document.id = second.document.id →
    first.content = second.content

/-- A map that holds what announcements have left, as far as peers have not been removed. -/
structure Reflects (past : List Publication) (catalogue : Catalogue) : Prop where
  known : ∀ id, (catalogue id).map (fun holding => (holding.document, holding.chunks)) =
    publishedBy past id
  owned : ∀ id holding, catalogue id = some holding → holding.available ⊆ ownersOf past id

theorem announcementsFor_append (past more : List Publication) (id : ObjectID) :
    announcementsFor (past ++ more) id = announcementsFor past id ++ announcementsFor more id :=
  List.filter_append ..

theorem announcementsFor_singleton (publication : Publication) (id : ObjectID) :
    announcementsFor [publication] id =
      if publication.document.id = id then [publication] else [] := by
  simp [announcementsFor, List.filter_cons]

theorem mem_announcementsFor {past : List Publication} {id : ObjectID}
    {publication : Publication} : publication ∈ announcementsFor past id ↔
      publication ∈ past ∧ publication.document.id = id := by
  simp [announcementsFor]

/-- Announcing everything twice leaves the same behind as announcing it once. -/
theorem publishedBy_twice (past : List Publication) (id : ObjectID) :
    publishedBy (past ++ past) id = publishedBy past id := by
  have first : ∀ list : List Publication, (list ++ list).head? = list.head? := by
    intro list
    cases list <;> rfl
  have last : ∀ list : List Publication, (list ++ list).getLast? = list.getLast? := by
    intro list
    rw [List.getLast?_append, Option.or_self]
  rw [publishedBy, announcementsFor_append, first, last]
  rfl

/-- What is known of a document comes from a first and a last announcement. -/
theorem Reflects.witnesses {past : List Publication} {catalogue : Catalogue}
    (reflects : Reflects past catalogue) {id : ObjectID} {known : Holding}
    (found : catalogue id = some known) :
    ∃ first ∈ past, ∃ last ∈ past, first.document.id = id ∧ last.document.id = id ∧
      (announcementsFor past id).head? = some first ∧
      known.document = { first.metadata with
        chunkHashes := some (last.chunks.map MetadataChunk.hash) } ∧
      known.chunks = some last.chunks := by
  have told := reflects.known id
  rw [found, publishedBy] at told
  split at told
  · rename_i first last isFirst isLast
    obtain ⟨document, chunks⟩ := Prod.mk.inj (Option.some.inj told)
    obtain ⟨firstPast, firstId⟩ := mem_announcementsFor.mp (List.mem_of_head? isFirst)
    obtain ⟨lastPast, lastId⟩ := mem_announcementsFor.mp (List.mem_of_getLast? isLast)
    exact ⟨first, firstPast, last, lastPast, firstId, lastId, isFirst, document, chunks⟩
  · cases told

/-- A document of which nothing is known has not been announced. -/
theorem Reflects.unannounced {past : List Publication} {catalogue : Catalogue}
    (reflects : Reflects past catalogue) {id : ObjectID} (absent : catalogue id = none) :
    announcementsFor past id = [] := by
  have told := reflects.known id
  rw [absent, publishedBy] at told
  cases those : announcementsFor past id with
  | nil => rfl
  | cons first rest =>
    rw [those, List.head?_cons, List.getLast?_cons] at told
    cases told

section Step

variable {past : List Publication} {catalogue : Catalogue} {publication : Publication}

/-- An announcement agrees with what is known exactly if it has the content of the announcements
before it. -/
theorem Reflects.agrees_iff (reflects : Reflects past catalogue) (unanimous : Unanimous past)
    (valid : publication.Valid) :
    (∀ known ∈ catalogue publication.document.id,
        known.Agrees publication.metadata publication.chunks) ↔
      ∀ earlier ∈ past, earlier.document.id = publication.document.id →
        earlier.content = publication.content := by
  constructor
  · intro agrees earlier member same
    cases found : catalogue publication.document.id with
    | none =>
      have listed := mem_announcementsFor.mpr ⟨member, same⟩
      rw [reflects.unannounced found] at listed
      cases listed
    | some known =>
      obtain ⟨first, firstPast, last, lastPast, firstId, lastId, -, document, chunks⟩ :=
        reflects.witnesses found
      have agree := agrees known found
      rw [unanimous.same earlier member last lastPast (same.trans lastId.symm)]
      have firstLast := unanimous.same first firstPast last lastPast (firstId.trans lastId.symm)
      have size : last.document.fileSize = publication.document.fileSize := by
        have known := agree.size
        rw [document] at known
        exact (congrArg Prod.fst firstLast).symm.trans known
      refine Prod.ext size (List.ext_getElem? fun index => ?_)
      have length : last.chunks.length = publication.chunks.length := by
        rw [(unanimous.valid last lastPast).complete, valid.complete,
          ← (unanimous.valid last lastPast).count, ← valid.count,
          (unanimous.valid last lastPast).count_eq valid size]
      show (last.chunks.map _)[index]? = (publication.chunks.map _)[index]?
      rw [List.getElem?_map, List.getElem?_map]
      by_cases inside : index < last.chunks.length
      · have old := List.getElem?_eq_getElem inside
        have new := List.getElem?_eq_getElem (length ▸ inside)
        rw [old, new]
        obtain ⟨sizes, hashes⟩ := agree.content _ chunks index _ _ old new
        simp only [Option.map_some, sizes, hashes]
      · rw [List.getElem?_eq_none (not_lt.mp inside),
          List.getElem?_eq_none (length ▸ not_lt.mp inside)]
  · intro same known found
    obtain ⟨first, firstPast, last, lastPast, firstId, lastId, -, document, chunks⟩ :=
      reflects.witnesses found
    have firstSame : first.document.fileSize = publication.document.fileSize :=
      congrArg Prod.fst (same first firstPast firstId)
    refine ⟨?_, ?_, ?_⟩
    · rw [document]
      exact firstSame
    · rw [document]
      exact (unanimous.valid first firstPast).count_eq valid firstSame
    · intro published isPublished index old new isOld isNew
      rw [chunks] at isPublished
      cases isPublished
      have contents := congrArg (fun content => content.2[index]?) (same last lastPast lastId)
      simp only [Publication.content, List.getElem?_map, isOld, isNew, Option.map_some,
        Option.some.injEq, Prod.mk.injEq] at contents
      exact contents

theorem Unanimous.append (unanimous : Unanimous past) (valid : publication.Valid)
    (same : ∀ earlier ∈ past, earlier.document.id = publication.document.id →
      earlier.content = publication.content) : Unanimous (past ++ [publication]) where
  valid other member := by
    rcases List.mem_append.mp member with old | new
    · exact unanimous.valid other old
    · rw [List.mem_singleton.mp new]
      exact valid
  same first isFirst second isSecond ids := by
    rcases List.mem_append.mp isFirst with old | new <;>
      rcases List.mem_append.mp isSecond with older | newer
    · exact unanimous.same first old second older ids
    · rw [List.mem_singleton.mp newer] at ids ⊢
      exact same first old ids
    · rw [List.mem_singleton.mp new] at ids ⊢
      exact (same second older ids.symm).symm
    · rw [List.mem_singleton.mp new, List.mem_singleton.mp newer]

theorem Reflects.after (reflects : Reflects past catalogue) (valid : publication.Valid) :
    Reflects (past ++ [publication]) (catalogue.after publication) := by
  have others : ∀ id, id ≠ publication.document.id →
      catalogue.after publication id = catalogue id ∧
      announcementsFor (past ++ [publication]) id = announcementsFor past id := by
    intro id other
    refine ⟨Function.update_of_ne other _ _, ?_⟩
    rw [announcementsFor_append, announcementsFor_singleton, if_neg (Ne.symm other),
      List.append_nil]
  have own : catalogue.after publication publication.document.id = some _ :=
    Function.update_self ..
  constructor
  · intro id
    by_cases here : id = publication.document.id
    · rw [here, own, publishedBy, announcementsFor_append, announcementsFor_singleton, if_pos rfl]
      cases found : catalogue publication.document.id with
      | none =>
        rw [reflects.unannounced found]
        rfl
      | some known =>
        obtain ⟨first, -, last, -, -, -, isFirst, document, chunks⟩ := reflects.witnesses found
        rw [List.head?_append, isFirst, List.getLast?_concat]
        simp only [Option.map_some, Holding.merge, chunks, Option.isSome_some, if_true, document,
          Option.some_or]
    · obtain ⟨unchanged, those⟩ := others id here
      rw [unchanged, publishedBy, those]
      exact reflects.known id
  · intro id holding found pair member
    by_cases here : id = publication.document.id
    · subst here
      rw [own] at found
      cases found
      have mine : pair ∈ ownedBy publication.metadata.chunkCount.toNat publication.owner →
          pair ∈ ownersOf (past ++ [publication]) publication.document.id := by
        rintro ⟨inside, isOwner⟩
        rw [valid.count] at inside
        exact ⟨publication, List.mem_append_right _ List.mem_cons_self, rfl, inside, isOwner⟩
      cases known : catalogue publication.document.id with
      | none =>
        rw [known] at member
        exact mine member
      | some old =>
        rw [known] at member
        rcases member with before | now
        · obtain ⟨earlier, isEarlier, rest⟩ := reflects.owned _ old known before
          exact ⟨earlier, List.mem_append_left _ isEarlier, rest⟩
        · exact mine now
    · rw [(others id here).1] at found
      obtain ⟨earlier, isEarlier, rest⟩ := reflects.owned id holding found member
      exact ⟨earlier, List.mem_append_left _ isEarlier, rest⟩

theorem Reflects.removePeer (reflects : Reflects past catalogue) (peer : NodeID) :
    Reflects past (catalogue.removePeer peer) where
  known id := by
    rw [← reflects.known id, Catalogue.removePeer, Option.map_map]
    rfl
  owned id holding found := by
    obtain ⟨known, before, rfl⟩ := Option.map_eq_some_iff.mp found
    exact fun pair member => reflects.owned id known before member.1

/-- An announcement keeps the owners that are known, and adds its own. -/
theorem Reflects.covers_after (reflects : Reflects past catalogue) (valid : publication.Valid)
    {done : List Publication} (among : done ⊆ past)
    (covers : ∀ id, ∀ known ∈ catalogue id, ownersOf done id ⊆ known.available) :
    ∀ id, ∀ known ∈ catalogue.after publication id,
      ownersOf (done ++ [publication]) id ⊆ known.available := by
  intro id known found pair
  rintro ⟨announced, member, same, inside, isOwner⟩
  by_cases here : id = publication.document.id
  · subst here
    have own : catalogue.after publication publication.document.id = some _ :=
      Function.update_self ..
    rw [own] at found
    cases found
    rcases List.mem_append.mp member with before | now
    · cases old : catalogue publication.document.id with
      | none =>
        have listed := mem_announcementsFor.mpr ⟨among before, same⟩
        rw [reflects.unannounced old] at listed
        cases listed
      | some holding =>
        exact Or.inl (covers _ holding old ⟨announced, before, same, inside, isOwner⟩)
    · rw [List.mem_singleton.mp now, ← valid.count] at inside
      rw [List.mem_singleton.mp now] at isOwner
      cases catalogue publication.document.id with
      | none => exact ⟨inside, isOwner⟩
      | some holding => exact Or.inr ⟨inside, isOwner⟩
  · rw [Catalogue.after, Catalogue.write, Function.update_of_ne here] at found
    rcases List.mem_append.mp member with before | now
    · exact covers id known found ⟨announced, before, same, inside, isOwner⟩
    · rw [List.mem_singleton.mp now] at same
      exact absurd same.symm here

end Step

/-! ### Runs -/

/-- A table that holds what announcements have left. -/
structure Rebuilt (past : List Publication) (store : MetadataStore) : Prop where
  wellFormed : store.WellFormed
  unanimous : Unanimous past
  reflects : Reflects past store.catalogue

theorem Rebuilt.empty : Rebuilt [] MetadataStore.empty where
  wellFormed := MetadataStore.WellFormed.empty
  unanimous := ⟨nofun, nofun⟩
  reflects := ⟨fun _ => rfl, nofun⟩

/-- The table after a unanimous announcement, which is accepted. -/
theorem Rebuilt.announce {past : List Publication} {store : MetadataStore}
    (rebuilt : Rebuilt past store) {publication : Publication} (valid : publication.Valid)
    (same : ∀ earlier ∈ past, earlier.document.id = publication.document.id →
      earlier.content = publication.content) :
    ∃ next, directoryAnnounce store publication.document publication.chunks publication.owner =
      (next, .ok ()) ∧ next.catalogue = store.catalogue.after publication ∧
      Rebuilt (past ++ [publication]) next := by
  obtain ⟨next, accepted, wellFormed, catalogue⟩ := directoryAnnounce_accepts rebuilt.wellFormed
    valid ((rebuilt.reflects.agrees_iff rebuilt.unanimous valid).mpr same)
  refine ⟨next, accepted, catalogue, wellFormed, rebuilt.unanimous.append valid same, ?_⟩
  rw [catalogue]
  exact rebuilt.reflects.after valid

theorem DirectoryEvent.apply_announce {store next : MetadataStore} {publication : Publication}
    {complete : publication.chunks.length = publication.document.chunkCount.toNat} :
    (DirectoryEvent.announce publication complete).apply store = some next ↔
      directoryAnnounce store publication.document publication.chunks publication.owner =
        (next, .ok ()) := by
  rw [DirectoryEvent.apply]
  split
  · rename_i equal
    rw [equal, Option.some.injEq, Prod.mk.injEq]
    exact (and_iff_left rfl).symm
  · rename_i equal
    rw [equal]
    exact ⟨nofun, fun same => by cases (Prod.mk.inj same).2⟩

/-- The table after a call that succeeds holds what the announcements have left. -/
theorem Rebuilt.apply {past : List Publication} {store next : MetadataStore}
    (rebuilt : Rebuilt past store) {event : DirectoryEvent} (done : event.apply store = some next) :
    Rebuilt (past ++ announcementsOf [event]) next := by
  cases event with
  | announce publication complete =>
    have accepted := DirectoryEvent.apply_announce.mp done
    obtain ⟨valid, agrees⟩ := directoryAnnounce_accepted rebuilt.wellFormed complete accepted
    obtain ⟨other, again, -, outcome⟩ := rebuilt.announce valid
      ((rebuilt.reflects.agrees_iff rebuilt.unanimous valid).mp agrees)
    rw [accepted, Prod.mk.injEq] at again
    rw [again.1]
    exact outcome
  | removePeer peer =>
    cases done
    rw [announcementsOf, List.filterMap_cons_none rfl, List.filterMap_nil, List.append_nil]
    refine ⟨rebuilt.wellFormed.removePeer peer, rebuilt.unanimous, ?_⟩
    rw [MetadataStore.catalogue_removePeer]
    exact rebuilt.reflects.removePeer peer

theorem Rebuilt.run {past : List Publication} {store final : MetadataStore}
    (rebuilt : Rebuilt past store) {events : List DirectoryEvent}
    (done : DirectoryEvent.run store events = some final) :
    Rebuilt (past ++ announcementsOf events) final := by
  induction events generalizing past store with
  | nil =>
    cases done
    rw [announcementsOf, List.filterMap_nil, List.append_nil]
    exact rebuilt
  | cons event rest inductionHypothesis =>
    obtain ⟨next, first, later⟩ := Option.bind_eq_some_iff.mp done
    have outcome := inductionHypothesis (rebuilt.apply first) later
    have split : announcementsOf (event :: rest) =
        announcementsOf [event] ++ announcementsOf rest := by
      unfold announcementsOf
      rw [← List.filterMap_append, List.singleton_append]
    rw [split, ← List.append_assoc]
    exact outcome

/-- Unanimous announcements are all accepted, and their owners are known afterwards. -/
theorem Rebuilt.replay {past done : List Publication} {store : MetadataStore}
    (rebuilt : Rebuilt past store) (among : done ⊆ past)
    (covers : ∀ id, ∀ known ∈ store.catalogue id, ownersOf done id ⊆ known.available)
    {events : List DirectoryEvent} (announce : ∀ event ∈ events, event.announced.isSome)
    (unanimous : Unanimous (past ++ announcementsOf events)) :
    ∃ final, DirectoryEvent.run store events = some final ∧
      Rebuilt (past ++ announcementsOf events) final ∧
      ∀ id, ∀ known ∈ final.catalogue id,
        ownersOf (done ++ announcementsOf events) id ⊆ known.available := by
  induction events generalizing past done store with
  | nil =>
    refine ⟨store, rfl, ?_, ?_⟩
    · rw [announcementsOf, List.filterMap_nil, List.append_nil]
      exact rebuilt
    · rw [announcementsOf, List.filterMap_nil, List.append_nil]
      exact covers
  | cons event rest inductionHypothesis =>
    have remaining := fun other member => announce other (List.mem_cons_of_mem event member)
    cases event with
    | announce publication complete =>
      have split : announcementsOf (.announce publication complete :: rest) =
          [publication] ++ announcementsOf rest := rfl
      rw [split, ← List.append_assoc] at unanimous
      have here : publication ∈ past ++ [publication] ++ announcementsOf rest :=
        List.mem_append_left _ (List.mem_append_right _ List.mem_cons_self)
      have valid := unanimous.valid publication here
      obtain ⟨next, accepted, catalogue, following⟩ := rebuilt.announce valid
        fun earlier member same => unanimous.same earlier
          (List.mem_append_left _ (List.mem_append_left _ member)) publication here same
      obtain ⟨final, later, outcome, known⟩ := inductionHypothesis following
        (List.append_subset.mpr ⟨fun _ member => List.mem_append_left _ (among member),
          List.subset_append_right _ _⟩)
        (catalogue ▸ rebuilt.reflects.covers_after valid among covers) remaining unanimous
      refine ⟨final, ?_, ?_, ?_⟩
      · rw [DirectoryEvent.run, DirectoryEvent.apply_announce.mpr accepted]
        exact later
      · rw [split, ← List.append_assoc]
        exact outcome
      · rw [split, ← List.append_assoc]
        exact known
    | removePeer peer => cases announce _ List.mem_cons_self

/-! ### Replaying a log -/

theorem announced_of_mem_replayOf {events : List DirectoryEvent} {event : DirectoryEvent}
    (member : event ∈ replayOf events) : event.announced.isSome :=
  (List.mem_filter.mp member).2

/-- A table with the documents and descriptors of another, whose availabilities are those of all
announcements. -/
structure MetadataStore.Restores (replayed live : MetadataStore) (past : List Publication) :
    Prop where
  published : ∀ id, (replayed.find id).map (fun entry => (entry.document, entry.chunks)) =
    (live.find id).map fun entry => (entry.document, entry.chunks)
  once : ∀ id entry, replayed.find id = some entry → entry.available.Nodup
  owned : ∀ id entry, replayed.find id = some entry → ∀ index peer,
    ⟨index, peer⟩ ∈ entry.available ↔ ∃ publication ∈ past, publication.document.id = id ∧
      index.toNat < publication.document.chunkCount.toNat ∧ peer = publication.owner

/-- A replay restores a table, after announcements that leave nothing more behind. -/
theorem Rebuilt.restores {past announced : List Publication} {replayed live : MetadataStore}
    (after : Rebuilt (past ++ announced) replayed) (built : Rebuilt announced live)
    (covers : ∀ id, ∀ known ∈ replayed.catalogue id, ownersOf announced id ⊆ known.available)
    (same : ∀ id, publishedBy (past ++ announced) id = publishedBy announced id)
    (noMore : past ⊆ announced) : replayed.Restores live announced where
  published id := by
    have left := after.reflects.known id
    rw [same id, ← built.reflects.known id] at left
    rw [MetadataStore.catalogue, MetadataStore.catalogue, Option.map_map, Option.map_map] at left
    exact left
  once id entry found := (after.wellFormed.find_sound found).once
  owned id entry found index peer := by
    have isKnown := MetadataStore.catalogue_of_find found
    constructor
    · intro member
      obtain ⟨publication, listed, rest⟩ := after.reflects.owned id _ isKnown
        (show (index, peer) ∈ _ from member)
      exact ⟨publication, (List.mem_append.mp listed).elim (fun old => noMore old)
        (fun new => new), rest⟩
    · intro listed
      exact covers id _ isKnown (show (index, peer) ∈ _ from listed)

/-- Announcing everything again, to an empty table or to the table that the calls have built, is
accepted and restores that table, with all owners. -/
theorem replay_rebuilds_catalogue {events : List DirectoryEvent} {live : MetadataStore}
    (ran : DirectoryEvent.run MetadataStore.empty events = some live)
    {start : MetadataStore} (isStart : start = MetadataStore.empty ∨ start = live) :
    ∃ replayed, DirectoryEvent.run start (replayOf events) = some replayed ∧
      replayed.Restores live (announcementsOf events) := by
  have built : Rebuilt (announcementsOf events) live := Rebuilt.empty.run ran
  have all := announcementsOf_replayOf events
  -- the announcements before the replay are none, or the same
  obtain ⟨past, before, unanimous, same, noMore⟩ : ∃ past, Rebuilt past start ∧
      Unanimous (past ++ announcementsOf events) ∧
      (∀ id, publishedBy (past ++ announcementsOf events) id =
        publishedBy (announcementsOf events) id) ∧ past ⊆ announcementsOf events := by
    rcases isStart with rfl | rfl
    · exact ⟨[], Rebuilt.empty, built.unanimous, fun _ => rfl, List.nil_subset _⟩
    · have twice : ∀ publication ∈ announcementsOf events ++ announcementsOf events,
          publication ∈ announcementsOf events :=
        fun _ member => (List.mem_append.mp member).elim id id
      exact ⟨_, built, ⟨fun publication member => built.unanimous.valid _ (twice _ member),
        fun first isFirst second isSecond => built.unanimous.same first (twice _ isFirst) second
          (twice _ isSecond)⟩, publishedBy_twice _, List.Subset.refl _⟩
  obtain ⟨replayed, done, after, covers⟩ := before.replay (List.nil_subset past)
    (fun id known _ pair => fun ⟨_, absurd, _⟩ => nomatch absurd)
    (fun _ => announced_of_mem_replayOf) (all.symm ▸ unanimous)
  rw [all] at after covers
  exact ⟨replayed, done, after.restores built covers same noMore⟩

/-- A document of one byte, called a.pdf, as a peer announces it. -/
def oneBytePublication (owner : UInt8) (compressedSize : UInt32) : Publication where
  owner := Octets.fill nodeIdSize owner
  document := ⟨Octets.read objectIdSize [5], [97, 46, 112, 100, 102], 1, 1, compressionLz4⟩
  chunks := [{ oneByteChunk with compressedSize := compressedSize }]

/-- Two owners announce a document with different compressions, and the first is removed: a replay
on the table brings it back. -/
theorem replay_rebuilds_catalogue_pair :
    let events : List DirectoryEvent := [.announce (oneBytePublication 1 2) rfl,
      .removePeer (Octets.fill _ 1), .announce (oneBytePublication 2 3) rfl]
    ∃ live, DirectoryEvent.run MetadataStore.empty events = some live ∧
      ∃ replayed, DirectoryEvent.run live (replayOf events) = some replayed ∧
        replayed.Restores live (announcementsOf events) := by
  intro events
  have succeeds : (DirectoryEvent.run MetadataStore.empty events).isSome = true := by
    decide +kernel
  obtain ⟨live, ran⟩ := Option.isSome_iff_exists.mp succeeds
  exact ⟨live, ran, replay_rebuilds_catalogue ran (Or.inr rfl)⟩

end SuperPeerNet
