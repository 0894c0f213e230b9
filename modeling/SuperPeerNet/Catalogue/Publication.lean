/-
This file says when a sequence of announcements can be applied.

An announcement by itself passes the checks of the decoder, of the directory and of
the store, or it does not. Against a store it can fail only because the store has
other content under its id. So well-formed announcements that agree wherever they name
the same document can be applied in whatever order they come.
-/

import SuperPeerNet.Catalogue.Metadata
import SuperPeerNet.Cluster.Create

namespace SuperPeerNet

/-! ### Announcements in operations -/

/-- What a replicated operation announces. -/
structure Publication where
  owner : NodeID
  document : TransferDocument
  chunks : List MetadataChunk
  deriving DecidableEq

/-- The part of `apply_c4_entry` before it reaches the directory. -/
def publicationOf (operation : List UInt8) : Except Errno Publication :=
  if operation.length ≤ nodeIdSize then .error .ebadmsg
  else match transferDecodeAnnouncement (operation.drop nodeIdSize) with
    | .error code => .error code
    | .ok (document, chunks) => .ok ⟨Octets.read nodeIdSize operation, document, chunks⟩

theorem applyC4Entry_eq (store : MetadataStore) (entry : C4LogEntry) :
    applyC4Entry store entry = match publicationOf entry.payload with
      | .error code => (store, .error code)
      | .ok publication => directoryAnnounce store publication.document publication.chunks
          publication.owner := by
  unfold applyC4Entry publicationOf
  split
  · rfl
  · cases transferDecodeAnnouncement (entry.payload.drop nodeIdSize) <;> rfl

namespace Publication

/-- The document as the store gets it. -/
def metadata (publication : Publication) : FileMetadata :=
  announcedDocument publication.document publication.owner

/-- The checks of the directory and the store that concern the announcement alone. -/
structure Acceptable (publication : Publication) : Prop where
  pdf : endsInPdf publication.document.name = true
  countable : publication.document.chunkCount.toNat ≤ 2 ^ 32 - 1
  fits : chunksFitFrom publication.metadata 0 publication.chunks = true

instance (publication : Publication) : Decidable publication.Acceptable :=
  decidable_of_iff (endsInPdf publication.document.name = true ∧
      publication.document.chunkCount.toNat ≤ 2 ^ 32 - 1 ∧
      chunksFitFrom publication.metadata 0 publication.chunks = true)
    ⟨fun all => ⟨all.1, all.2.1, all.2.2⟩, fun all => ⟨all.pdf, all.countable, all.fits⟩⟩

/-- Two announcements of one document have the same content. -/
def Agrees (first second : Publication) : Prop :=
  first.document.id = second.document.id →
    first.document.fileSize = second.document.fileSize ∧
      first.chunks.map MetadataChunk.hash = second.chunks.map MetadataChunk.hash

instance (first second : Publication) : Decidable (first.Agrees second) :=
  inferInstanceAs (Decidable (_ → _))

theorem Agrees.refl (publication : Publication) : publication.Agrees publication :=
  fun _ => ⟨rfl, rfl⟩

theorem Agrees.symm {first second : Publication} (agrees : first.Agrees second) :
    second.Agrees first := by
  intro same
  obtain ⟨size, hashes⟩ := agrees same.symm
  exact ⟨size.symm, hashes.symm⟩

/-- What the decoder has checked of an announcement. -/
structure Decoded (publication : Publication) : Prop where
  document : publication.document.Decoded
  length : publication.chunks.length = publication.document.chunkCount.toNat
  nonzero : publication.document.chunkCount.toNat ≠ 0

theorem decoded_of_publicationOf {operation : List UInt8} {publication : Publication}
    (decoded : publicationOf operation = .ok publication) : publication.Decoded := by
  unfold publicationOf at decoded
  split at decoded
  · cases decoded
  · split at decoded
    · cases decoded
    · rename_i document chunks found
      cases decoded
      obtain ⟨header, length, nonzero⟩ := transferDecodeAnnouncement_ok found
      exact ⟨header, length, nonzero⟩

theorem toNat_chunkCount {publication : Publication} (acceptable : publication.Acceptable) :
    publication.metadata.chunkCount.toNat = publication.document.chunkCount.toNat := by
  have small := acceptable.countable
  show publication.document.chunkCount.toUInt32.toNat = _
  rw [UInt64.toNat_toUInt32, Nat.mod_eq_of_lt (by omega)]

/-- The store gets to its lookup: the checks before it all pass. -/
theorem announce_eq {publication : Publication} (decoded : publication.Decoded)
    (acceptable : publication.Acceptable) (store : MetadataStore) :
    directoryAnnounce store publication.document publication.chunks publication.owner =
      match store.find publication.document.id with
      | none =>
        (store.put (announcedEntry publication.metadata publication.chunks publication.owner),
          .ok ())
      | some old =>
        if old.document.size ≠ publication.metadata.size ∨
            old.document.chunkCount ≠ publication.metadata.chunkCount then (store, .error .eexist)
        else if sameContents old.chunks publication.chunks = false then (store, .error .eexist)
        else (store.put (mergedEntry old (announcedEntry publication.metadata publication.chunks
          publication.owner) publication.owner), .ok ()) := by
  have count := toNat_chunkCount acceptable
  have all : publication.chunks.take publication.metadata.chunkCount.toNat =
      publication.chunks := by
    rw [count, ← decoded.length, List.take_length]
  have valid : ¬ (publication.metadata.chunkCount = 0 ∨
      publication.metadata.chunkCount.toUInt64 ≠ chunkCountOf publication.metadata.size ∨
      publication.metadata.filename = [] ∨
      publication.metadata.filename.length ≥ metadataNameSize) := by
    have sameCount : publication.metadata.chunkCount.toUInt64 = publication.document.chunkCount :=
      UInt64.toNat_inj.mp (by rw [UInt32.toNat_toUInt64, count])
    rintro (zero | other | empty | long)
    · rw [zero] at count
      exact decoded.nonzero count.symm
    · rw [sameCount] at other
      exact other decoded.document.count
    · exact decoded.document.nonempty empty
    · exact absurd decoded.document.short (not_lt.mpr long)
  unfold directoryAnnounce metadataAnnounce
  rw [if_neg (not_not.mpr decoded.document.compression), if_neg (by simp [acceptable.pdf]),
    if_neg (not_lt.mpr acceptable.countable)]
  show (if _ then _ else _) = _
  simp only [show announcedDocument publication.document publication.owner = publication.metadata
    from rfl, all]
  rw [if_neg valid, if_neg (by simp [acceptable.fits])]
  rfl

/-! ### Agreeing announcements -/

/-- Descriptors that fit documents of one size, and that have the same hashes, have the same
content. -/
theorem sameContents_of_fits {first second : FileMetadata} (size : first.size = second.size)
    {position : Nat} {old new : List MetadataChunk}
    (oldFits : chunksFitFrom first position old = true)
    (newFits : chunksFitFrom second position new = true)
    (hashes : old.map MetadataChunk.hash = new.map MetadataChunk.hash) :
    sameContents (some old) new = true := by
  unfold sameContents
  induction old generalizing position new with
  | nil => rfl
  | cons chunk rest inductionHypothesis =>
    cases new with
    | nil => rfl
    | cons other others =>
      obtain ⟨sameHash, sameRest⟩ := List.cons.inj hashes
      simp only [chunksFitFrom, Bool.and_eq_true] at oldFits newFits
      have sameSize : chunk.rawSize = other.rawSize := by
        have left := oldFits.1
        have right := newFits.1
        simp only [chunkFits, Bool.and_eq_true, decide_eq_true_eq] at left right
        refine UInt32.toNat_inj.mp ?_
        rw [← UInt32.toNat_toUInt64, ← UInt32.toNat_toUInt64, left.1.1.2, right.1.1.2, size]
      simp only [List.zip_cons_cons, List.all_cons, Bool.and_eq_true]
      refine ⟨?_, inductionHypothesis oldFits.2 newFits.2 sameRest⟩
      simp [sameContent, sameSize, sameHash]

end Publication

/-- The store holds nothing but what the given announcements have published. -/
def MetadataStore.Holds (store : MetadataStore) (published : Publication → Prop) : Prop :=
  ∀ id entry, store.find id = some entry → ∃ publication, published publication ∧
    publication.document.id = id ∧ entry.document.size = publication.metadata.size ∧
    entry.document.chunkCount = publication.metadata.chunkCount ∧
    entry.chunks = some publication.chunks

section Apply

variable {published : Publication → Prop} {store : MetadataStore}

/-- An announcement that agrees with all that is published is accepted. -/
theorem announce_accepted (holds : store.Holds published)
    (sound : ∀ publication, published publication →
      publication.Decoded ∧ publication.Acceptable)
    (agree : ∀ first second, published first → published second → first.Agrees second)
    {publication : Publication} (member : published publication) :
    ∃ next, directoryAnnounce store publication.document publication.chunks publication.owner =
      (next, .ok ()) ∧ next.Holds published := by
  obtain ⟨decoded, acceptable⟩ := sound publication member
  rw [publication.announce_eq decoded acceptable]
  have kept : ∀ entry : MetadataEntry, MetadataStore.key entry = publication.document.id →
      entry.document.size = publication.metadata.size →
      entry.document.chunkCount = publication.metadata.chunkCount →
      entry.chunks = some publication.chunks → (store.put entry).Holds published := by
    intro entry key size count chunks id other found
    rw [MetadataStore.find_put] at found
    split at found
    · rename_i same
      cases found
      exact ⟨publication, member, by rw [same, key], size, count, chunks⟩
    · exact holds id other found
  cases found : store.find publication.document.id with
  | none => exact ⟨_, rfl, kept _ rfl rfl rfl rfl⟩
  | some old =>
    obtain ⟨earlier, earlierMember, sameId, size, count, chunks⟩ := holds _ old found
    obtain ⟨earlierDecoded, earlierAcceptable⟩ := sound earlier earlierMember
    obtain ⟨sameSize, sameHashes⟩ := agree earlier publication earlierMember member sameId
    have sameCount : earlier.metadata.chunkCount = publication.metadata.chunkCount := by
      have fromSize : earlier.document.chunkCount = publication.document.chunkCount := by
        rw [earlierDecoded.document.count, decoded.document.count, sameSize]
      show earlier.document.chunkCount.toUInt32 = publication.document.chunkCount.toUInt32
      rw [fromSize]
    have sizeToo : old.document.size = publication.metadata.size := size.trans sameSize
    have countToo : old.document.chunkCount = publication.metadata.chunkCount :=
      count.trans sameCount
    have contents : sameContents old.chunks publication.chunks = true := by
      rw [chunks]
      exact Publication.sameContents_of_fits sameSize earlierAcceptable.fits acceptable.fits
        sameHashes
    refine ⟨store.put (mergedEntry old (announcedEntry publication.metadata publication.chunks
      publication.owner) publication.owner), ?_, ?_⟩
    · simp [sizeToo, countToo, contents]
    · have keyOld : MetadataStore.key old = publication.document.id := KeyedList.lookup_key found
      have document : (mergedEntry old (announcedEntry publication.metadata publication.chunks
          publication.owner) publication.owner).document =
          { old.document with
            chunkHashes := some (publication.chunks.map MetadataChunk.hash) } := by
        simp [mergedEntry, announcedEntry, chunks]
      refine kept _ ?_ ?_ ?_ rfl
      · rw [MetadataStore.key, document]
        exact keyOld
      · rw [document]
        exact sizeToo
      · rw [document]
        exact countToo

/-- Well-formed announcements that agree can be applied in any order. -/
theorem applies_of_agree (holds : store.Holds published)
    (sound : ∀ publication, published publication →
      publication.Decoded ∧ publication.Acceptable)
    (agree : ∀ first second, published first → published second → first.Agrees second)
    {entries : List C4LogEntry}
    (announced : ∀ entry ∈ entries, ∃ publication, published publication ∧
      publicationOf entry.payload = .ok publication) :
    Applies applyC4Entry store entries := by
  induction entries generalizing store with
  | nil => trivial
  | cons entry rest inductionHypothesis =>
    obtain ⟨publication, member, decoded⟩ := announced entry List.mem_cons_self
    obtain ⟨next, accepted, holdsNext⟩ := announce_accepted holds sound agree member
    have applied : applyC4Entry store entry = (next, .ok ()) := by
      rw [applyC4Entry_eq, decoded]
      exact accepted
    unfold Applies
    rw [applied]
    exact ⟨rfl, inductionHypothesis holdsNext fun other inRest =>
      announced other (List.mem_cons_of_mem _ inRest)⟩

end Apply

end SuperPeerNet
