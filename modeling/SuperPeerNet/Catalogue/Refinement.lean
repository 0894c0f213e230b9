/-
This file shows that the table of documents refines the map of `Catalogue.Reference`.

An entry of the table stands for what the map knows of a document: its availabilities, without
their order. A well-formed table stands for a map, and each call takes it to the table that stands
for the map after the call, with the same result. Sequences of calls follow by induction.
-/

import Mathlib.Data.List.Nodup
import SuperPeerNet.Catalogue.Reference

namespace SuperPeerNet

/-! ### Sizes as numbers -/

theorem chunkCountOf_toNat (size : UInt64) : (chunkCountOf size).toNat = chunksOf size := by
  have chunk : metadataChunkSize.toNat = 4194304 := rfl
  have small := size.toNat_lt
  unfold chunkCountOf chunksOf
  split
  · rename_i rest
    have remainder : size.toNat % 4194304 ≠ 0 := fun none =>
      rest (UInt64.toNat_inj.mp (by rw [UInt64.toNat_mod, chunk, none]; rfl))
    rw [UInt64.toNat_add, UInt64.toNat_div, chunk, show (1 : UInt64).toNat = 1 from rfl]
    omega
  · rename_i whole
    have remainder : size.toNat % 4194304 = 0 := by
      rw [← chunk, ← UInt64.toNat_mod, not_not.mp whole]
      rfl
    rw [UInt64.toNat_add, UInt64.toNat_div, chunk, show (0 : UInt64).toNat = 0 from rfl]
    omega

/-- The test of a descriptor, in numbers. -/
theorem chunkFits_iff {document : FileMetadata} {chunk : MetadataChunk} {position : Nat}
    (inside : position * 4194304 < document.size.toNat) :
    chunkFits document chunk position = true ↔
      chunk.index.toNat = position ∧ chunk.offset.toNat = position * 4194304 ∧
      chunk.rawSize.toNat = min 4194304 (document.size.toNat - position * 4194304) ∧
      chunk.compressedSize ≠ 0 ∧
      ∀ hashes ∈ document.chunkHashes, hashes[position]? = some chunk.hash := by
  have unit : metadataChunkSize.toNat = 4194304 := rfl
  have small := document.size.toNat_lt
  have index : (UInt64.ofNat position).toNat = position := by
    rw [UInt64.toNat_ofNat']
    exact Nat.mod_eq_of_lt (by omega)
  have offset : (UInt64.ofNat position * metadataChunkSize).toNat = position * 4194304 := by
    rw [UInt64.toNat_mul, index, unit]
    exact Nat.mod_eq_of_lt (by omega)
  have remaining : (document.size - UInt64.ofNat position * metadataChunkSize).toNat =
      document.size.toNat - position * 4194304 := by
    rw [UInt64.toNat_sub_of_le _ _ (by rw [UInt64.le_iff_toNat_le, offset]; omega), offset]
  have size : (if document.size - UInt64.ofNat position * metadataChunkSize > metadataChunkSize
      then metadataChunkSize
      else document.size - UInt64.ofNat position * metadataChunkSize).toNat =
      min 4194304 (document.size.toNat - position * 4194304) := by
    split
    · rename_i more
      rw [gt_iff_lt, UInt64.lt_iff_toNat_lt, remaining, unit] at more
      rw [unit]
      omega
    · rename_i fewer
      rw [gt_iff_lt, UInt64.lt_iff_toNat_lt, remaining, unit] at fewer
      rw [remaining]
      omega
  unfold chunkFits
  simp only [Bool.and_eq_true, decide_eq_true_eq, ← UInt64.toNat_inj, index, offset, size,
    UInt32.toNat_toUInt64, and_assoc]
  cases document.chunkHashes <;> simp

theorem chunksFitFrom_iff {document : FileMetadata} {chunks : List MetadataChunk} {start : Nat} :
    chunksFitFrom document start chunks = true ↔
      ∀ (index : Nat) (chunk : MetadataChunk), chunks[index]? = some chunk →
        chunkFits document chunk (start + index) = true := by
  induction chunks generalizing start with
  | nil => simp [chunksFitFrom]
  | cons first rest inductionHypothesis =>
    rw [chunksFitFrom, Bool.and_eq_true, inductionHypothesis]
    constructor
    · rintro ⟨here, later⟩ index chunk found
      cases index with
      | zero =>
        cases found
        exact here
      | succ index =>
        rw [Nat.add_comm index, ← Nat.add_assoc]
        exact later index chunk found
    · intro all
      refine ⟨all 0 first rfl, fun index chunk found => ?_⟩
      rw [Nat.add_assoc, Nat.add_comm 1]
      exact all (index + 1) chunk found

theorem sameContents_iff {old : Option (List MetadataChunk)} {chunks : List MetadataChunk} :
    sameContents old chunks = true ↔
      ∀ published ∈ old, ∀ (index : Nat) (first second : MetadataChunk),
        published[index]? = some first → chunks[index]? = some second →
        first.rawSize = second.rawSize ∧ first.hash = second.hash := by
  cases old with
  | none => simp [sameContents]
  | some published =>
    simp only [sameContents, sameContent, List.all_eq_true, Bool.and_eq_true, decide_eq_true_eq,
      Option.mem_def, Option.some.injEq, forall_eq']
    constructor
    · intro all index first second isFirst isSecond
      exact all (first, second) (List.mem_of_getElem? (List.getElem?_zip_eq_some.mpr
        ⟨isFirst, isSecond⟩))
    · rintro all ⟨first, second⟩ member
      obtain ⟨index, found⟩ := List.mem_iff_getElem?.mp member
      obtain ⟨isFirst, isSecond⟩ := List.getElem?_zip_eq_some.mp found
      exact all index first second isFirst isSecond

/-- The tests that `metadata_announce` makes accept exactly the valid announcements. -/
theorem validAnnouncement_iff {document : FileMetadata} {chunks : List MetadataChunk}
    (complete : chunks.length = document.chunkCount.toNat) :
    ValidAnnouncement document chunks ↔
      ¬(document.chunkCount = 0 ∨ document.chunkCount.toUInt64 ≠ chunkCountOf document.size ∨
        document.filename = [] ∨ document.filename.length ≥ metadataNameSize) ∧
      chunksFitFrom document 0 chunks = true := by
  have zero : document.chunkCount = 0 ↔ document.chunkCount.toNat = 0 :=
    ⟨fun none => by rw [none]; rfl, fun none => UInt32.toNat_inj.mp none⟩
  have counted : document.chunkCount.toUInt64 = chunkCountOf document.size ↔
      document.chunkCount.toNat = chunksOf document.size := by
    rw [← UInt64.toNat_inj, UInt32.toNat_toUInt64, chunkCountOf_toNat]
  simp only [not_or, zero, counted, ne_eq, not_not, ge_iff_le, not_le, chunksFitFrom_iff,
    Nat.zero_add]
  have inside : document.chunkCount.toNat = chunksOf document.size →
      ∀ index < document.chunkCount.toNat, index * 4194304 < document.size.toNat := by
    intro count index small
    rw [count, chunksOf] at small
    omega
  constructor
  · intro valid
    refine ⟨⟨valid.nonempty, valid.counted, valid.named, valid.short⟩, fun index chunk found => ?_⟩
    have small : index < document.chunkCount.toNat :=
      complete ▸ (List.getElem?_eq_some_iff.mp found).1
    obtain ⟨other, same, fits⟩ := valid.fits index small
    rw [found] at same
    cases same
    exact (chunkFits_iff (inside valid.counted index small)).mpr fits
  · rintro ⟨⟨nonempty, count, named, short⟩, all⟩
    refine ⟨nonempty, count, named, short, fun index small => ?_⟩
    obtain ⟨chunk, found⟩ : ∃ chunk, chunks[index]? = some chunk :=
      ⟨_, List.getElem?_eq_getElem (complete ▸ small)⟩
    exact ⟨_, found, (chunkFits_iff (inside count index small)).mp (all index _ found)⟩

/-! ### What a table stands for -/

/-- What an entry says about its document. -/
def MetadataEntry.holding (entry : MetadataEntry) : Holding where
  document := entry.document
  chunks := entry.chunks
  available := {pair | ⟨pair.1, pair.2⟩ ∈ entry.available}

/-- Writing what is known already changes nothing. -/
theorem Catalogue.write_self {catalogue : Catalogue} {id : ObjectID} {known : Holding}
    (there : catalogue id = some known) : catalogue.write id (some known) = catalogue := by
  rw [Catalogue.write, ← there, Function.update_eq_self]

namespace MetadataStore

/-- The map that a table stands for. -/
def catalogue (store : MetadataStore) : Catalogue :=
  fun id => (store.find id).map MetadataEntry.holding

variable {store : MetadataStore} {entry : MetadataEntry} {id : ObjectID}

theorem catalogue_of_find (found : store.find id = some entry) :
    store.catalogue id = some entry.holding := by
  rw [catalogue, found]
  rfl

theorem catalogue_of_absent (absent : store.find id = none) : store.catalogue id = none := by
  rw [catalogue, absent]
  rfl

/-- A table whose lookups differ from those of another only for one id. -/
theorem catalogue_write {next : MetadataStore} {row : Option MetadataEntry}
    (finds : ∀ other, next.find other = if other = id then row else store.find other) :
    next.catalogue = store.catalogue.write id (row.map MetadataEntry.holding) := by
  funext other
  by_cases same : other = id
  · rw [catalogue, finds, if_pos same, Catalogue.write, same, Function.update_self]
  · rw [catalogue, finds, if_neg same, Catalogue.write, Function.update_of_ne same]
    rfl

theorem catalogue_put (store : MetadataStore) (entry : MetadataEntry) :
    (store.put entry).catalogue = store.catalogue.write (key entry) (some entry.holding) :=
  catalogue_write (store.find_put entry)

theorem catalogue_withAvailable (found : store.find id = some entry)
    (change : List Availability → List Availability) :
    (store.withAvailable id change).catalogue = store.catalogue.write id
      (some { entry.holding with
        available := {pair | ⟨pair.1, pair.2⟩ ∈ change entry.available} }) := by
  rw [catalogue_write (store.find_withAvailable id change), found]
  rfl

theorem catalogue_remove (wellFormed : store.WellFormed) (id : ObjectID) :
    (store.remove id).catalogue = store.catalogue.write id none :=
  catalogue_write (find_remove wellFormed id)

theorem catalogue_removePeer (store : MetadataStore) (peer : NodeID) :
    (metadataRemovePeer store peer).catalogue = store.catalogue.removePeer peer := by
  funext id
  rw [catalogue, find_removePeer, Catalogue.removePeer, catalogue, Option.map_map, Option.map_map]
  congr 1
  funext entry
  simp [MetadataEntry.withoutPeer, MetadataEntry.holding]

end MetadataStore

/-! ### Announced entries -/

section Announced

variable {document : FileMetadata} {chunks : List MetadataChunk} {owner : NodeID}

theorem mem_announced (complete : chunks.length = document.chunkCount.toNat)
    {item : Availability} : item ∈ (announcedEntry document chunks owner).available ↔
      item.index.toNat < document.chunkCount.toNat ∧ item.peer = owner := by
  have small := document.chunkCount.toNat_lt
  simp only [announcedEntry, List.mem_reverse, List.mem_map, List.mem_range, complete]
  constructor
  · rintro ⟨position, inside, rfl⟩
    rw [UInt64.toNat_ofNat', Nat.mod_eq_of_lt (by omega)]
    exact ⟨inside, rfl⟩
  · rintro ⟨inside, rfl⟩
    exact ⟨item.index.toNat, inside, by rw [UInt64.ofNat_toNat]⟩

theorem announcedEntry_sound (complete : chunks.length = document.chunkCount.toNat) :
    (announcedEntry document chunks owner).Sound where
  once := by
    have small := document.chunkCount.toNat_lt
    refine List.nodup_reverse.mpr (List.Nodup.map_on ?_ List.nodup_range)
    intro first isFirst second isSecond same
    rw [List.mem_range, complete] at isFirst isSecond
    have numbers := congrArg (fun item => item.index.toNat) same
    simp only [UInt64.toNat_ofNat'] at numbers
    rwa [Nat.mod_eq_of_lt (by omega), Nat.mod_eq_of_lt (by omega)] at numbers
  inside item member := ((mem_announced complete).mp member).1
  complete published isPublished := by
    cases isPublished
    exact complete

theorem announcedEntry_holding (complete : chunks.length = document.chunkCount.toNat) :
    (announcedEntry document chunks owner).holding = Holding.announced document chunks owner := by
  have pairs : {pair : UInt64 × NodeID |
      ⟨pair.1, pair.2⟩ ∈ (announcedEntry document chunks owner).available} =
      ownedBy document.chunkCount.toNat owner := by
    ext pair
    exact mem_announced complete
  unfold MetadataEntry.holding Holding.announced
  rw [pairs]
  rfl

variable {old : MetadataEntry}

theorem mergedEntry_sound (sound : old.Sound)
    (count : old.document.chunkCount = document.chunkCount)
    (complete : chunks.length = document.chunkCount.toNat) :
    (mergedEntry old (announcedEntry document chunks owner) owner).Sound := by
  have new : (announcedEntry document chunks owner).Sound := announcedEntry_sound complete
  have counted : (mergedEntry old (announcedEntry document chunks owner) owner).document.chunkCount =
      document.chunkCount := by
    unfold mergedEntry
    dsimp only
    split
    · exact count
    · rfl
  constructor
  · refine List.Nodup.append (List.nodup_reverse.mpr (sound.once.filter _)) new.once ?_
    intro item inOld inNew
    have others := List.of_mem_filter (List.mem_reverse.mp inOld)
    rw [((mem_announced complete).mp inNew).2] at others
    simp at others
  · intro item member
    rw [counted]
    rcases List.mem_append.mp member with inOld | inNew
    · rw [← count]
      exact sound.inside item (List.mem_of_mem_filter (List.mem_reverse.mp inOld))
    · exact new.inside item inNew
  · rw [counted]
    exact new.complete

theorem mergedEntry_holding (sound : old.Sound)
    (count : old.document.chunkCount = document.chunkCount)
    (complete : chunks.length = document.chunkCount.toNat) :
    (mergedEntry old (announcedEntry document chunks owner) owner).holding =
      old.holding.merge document chunks owner := by
  have pairs : {pair : UInt64 × NodeID | ⟨pair.1, pair.2⟩ ∈
      (mergedEntry old (announcedEntry document chunks owner) owner).available} =
      old.holding.available ∪ ownedBy document.chunkCount.toNat owner := by
    ext ⟨index, peer⟩
    simp only [mergedEntry, Set.mem_ofPred_eq, List.mem_append, List.mem_reverse, List.mem_filter,
      mem_announced complete, Set.mem_union, MetadataEntry.holding, ownedBy, decide_eq_true_eq]
    by_cases mine : peer = owner
    · -- the availabilities of the owner are announced again
      constructor
      · rintro (⟨-, other⟩ | announced)
        · exact absurd mine other
        · exact Or.inr announced
      · rintro (before | announced)
        · exact Or.inr ⟨count ▸ sound.inside _ before, mine⟩
        · exact Or.inr announced
    · simp [mine]
  unfold MetadataEntry.holding Holding.merge
  rw [pairs]
  unfold mergedEntry MetadataEntry.holding
  dsimp only
  congr 1
  split <;> rfl

end Announced

/-! ### Calls that change the table -/

/-- A call has taken a table to one that stands for the map after the call, with its result. -/
structure Refines (outcome : MetadataStore × Except Errno Unit)
    (expected : Catalogue × Except Errno Unit) : Prop where
  wellFormed : outcome.1.WellFormed
  catalogue : outcome.1.catalogue = expected.1
  result : outcome.2 = expected.2

section Operations

variable {store : MetadataStore}

theorem registerDocument_refines (wellFormed : store.WellFormed) (id : ObjectID)
    (name : List UInt8) (size : UInt64) :
    Refines (metadataRegisterDocument store id name size)
      (store.catalogue.registerDocument id name size) := by
  unfold metadataRegisterDocument Catalogue.registerDocument
  rw [chunkCountOf_toNat]
  split
  · exact ⟨wellFormed, rfl, rfl⟩
  · split
    · exact ⟨wellFormed, rfl, rfl⟩
    · rename_i fits
      cases found : store.find id with
      | some entry =>
        rw [MetadataStore.catalogue_of_find found]
        by_cases same : entry.document.size = size
        · simp only [same, ne_eq, not_true_eq_false, if_false]
          exact ⟨wellFormed, rfl, (if_pos same).symm⟩
        · simp only [same, ne_eq, not_false_eq_true, if_true]
          exact ⟨wellFormed, rfl, (if_neg same).symm⟩
      | none =>
        rw [MetadataStore.catalogue_of_absent found]
        have count : (chunkCountOf size).toUInt32 = UInt32.ofNat (chunksOf size) := by
          rw [← chunkCountOf_toNat]
          rfl
        refine ⟨wellFormed.put ⟨List.nodup_nil, nofun, nofun⟩, ?_, rfl⟩
        dsimp only
        rw [MetadataStore.catalogue_put, count]
        have nobody : {pair : UInt64 × NodeID | ⟨pair.1, pair.2⟩ ∈ ([] : List Availability)} = ∅ := by
          ext pair
          simp
        unfold MetadataEntry.holding
        dsimp only
        rw [nobody]
        rfl

theorem removeDocument_refines (wellFormed : store.WellFormed) (id : ObjectID) :
    Refines (metadataRemoveDocument store id) (store.catalogue.removeDocument id) := by
  unfold metadataRemoveDocument Catalogue.removeDocument
  cases found : store.find id with
  | none =>
    rw [MetadataStore.catalogue_of_absent found]
    exact ⟨wellFormed, rfl, rfl⟩
  | some entry =>
    rw [MetadataStore.catalogue_of_find found]
    exact ⟨wellFormed.remove id, MetadataStore.catalogue_remove wellFormed id, rfl⟩

/-- An index has been refused exactly if no chunk has it. -/
theorem not_inside_iff {index : UInt64} {count : UInt32} :
    index ≥ count.toUInt64 ↔ ¬index.toNat < count.toNat := by
  rw [ge_iff_le, UInt64.le_iff_toNat_le, UInt32.toNat_toUInt64, not_lt]

theorem registerChunk_refines (wellFormed : store.WellFormed) (id : ObjectID) (index : UInt64)
    (peer : NodeID) :
    Refines (metadataRegisterChunk store id index peer)
      (store.catalogue.registerChunk id index peer) := by
  unfold metadataRegisterChunk changeChunk Catalogue.registerChunk
  cases found : store.find id with
  | none =>
    rw [MetadataStore.catalogue_of_absent found]
    exact ⟨wellFormed, rfl, rfl⟩
  | some entry =>
    rw [MetadataStore.catalogue_of_find found]
    have sound := wellFormed.find_sound found
    simp only [not_inside_iff]
    by_cases inside : index.toNat < entry.document.chunkCount.toNat
    · have known : index.toNat < entry.holding.document.chunkCount.toNat := inside
      simp only [inside, known, not_true_eq_false, if_false, if_true, Bool.false_eq_true]
      by_cases there : ⟨index, peer⟩ ∈ entry.available
      · simp only [there, if_true]
        have same : insert (index, peer) entry.holding.available = entry.holding.available :=
          Set.insert_eq_of_mem there
        rw [same]
        exact ⟨wellFormed, (Catalogue.write_self (MetadataStore.catalogue_of_find found)).symm, rfl⟩
      · simp only [there, if_false]
        have next : (store.withAvailable id (· ++ [⟨index, peer⟩])).WellFormed := by
          refine wellFormed.withAvailable fun other isOther => ?_
          rw [found] at isOther
          cases isOther
          refine ⟨?_, ?_, sound.complete⟩
          · exact List.nodup_append.mpr ⟨sound.once, List.nodup_singleton _, fun item old _ new =>
              fun same => there (by rwa [same, List.mem_singleton.mp new] at old)⟩
          · intro item member
            rcases List.mem_append.mp member with old | new
            · exact sound.inside item old
            · rw [List.mem_singleton.mp new]
              exact inside
        have pairs : {pair : UInt64 × NodeID |
            ⟨pair.1, pair.2⟩ ∈ entry.available ++ [⟨index, peer⟩]} =
            insert (index, peer) entry.holding.available := by
          ext pair
          simp [MetadataEntry.holding, Prod.ext_iff, or_comm]
        refine ⟨next, ?_, rfl⟩
        dsimp only
        rw [MetadataStore.catalogue_withAvailable found, pairs]
    · have unknown : ¬index.toNat < entry.holding.document.chunkCount.toNat := inside
      simp only [inside, unknown, not_false_eq_true, if_true, if_false]
      exact ⟨wellFormed, rfl, rfl⟩

theorem unregisterChunk_refines (wellFormed : store.WellFormed) (id : ObjectID) (index : UInt64)
    (peer : NodeID) :
    Refines (metadataUnregisterChunk store id index peer)
      (store.catalogue.unregisterChunk id index peer) := by
  unfold metadataUnregisterChunk changeChunk Catalogue.unregisterChunk
  cases found : store.find id with
  | none =>
    rw [MetadataStore.catalogue_of_absent found]
    exact ⟨wellFormed, rfl, rfl⟩
  | some entry =>
    rw [MetadataStore.catalogue_of_find found]
    have sound := wellFormed.find_sound found
    simp only [not_inside_iff]
    by_cases inside : index.toNat < entry.document.chunkCount.toNat
    · have known : index.toNat < entry.holding.document.chunkCount.toNat := inside
      simp only [inside, known, not_true_eq_false, if_false, if_true]
      by_cases there : ⟨index, peer⟩ ∈ entry.available
      · have member : (index, peer) ∈ entry.holding.available := there
        simp only [there, member, if_true]
        have next : (store.withAvailable id (·.erase ⟨index, peer⟩)).WellFormed := by
          refine wellFormed.withAvailable fun other isOther => ?_
          rw [found] at isOther
          cases isOther
          exact ⟨sound.once.erase _,
            fun item member => sound.inside item (List.mem_of_mem_erase member), sound.complete⟩
        have pairs : {pair : UInt64 × NodeID |
            ⟨pair.1, pair.2⟩ ∈ entry.available.erase ⟨index, peer⟩} =
            entry.holding.available \ {(index, peer)} := by
          ext pair
          simp [MetadataEntry.holding, sound.once.mem_erase_iff, Prod.ext_iff, and_comm]
        refine ⟨next, ?_, rfl⟩
        dsimp only
        rw [MetadataStore.catalogue_withAvailable found, pairs]
      · have absent : (index, peer) ∉ entry.holding.available := there
        simp only [there, absent, if_false]
        exact ⟨wellFormed, rfl, rfl⟩
    · have unknown : ¬index.toNat < entry.holding.document.chunkCount.toNat := inside
      simp only [inside, unknown, not_false_eq_true, if_true, if_false]
      exact ⟨wellFormed, rfl, rfl⟩

theorem announce_refines (wellFormed : store.WellFormed) (document : FileMetadata)
    (chunks : List MetadataChunk) (owner : NodeID)
    (complete : chunks.length = document.chunkCount.toNat) :
    Refines (metadataAnnounce store document chunks owner)
      (store.catalogue.announce document chunks owner) := by
  have whole : chunks.take document.chunkCount.toNat = chunks :=
    List.take_of_length_le complete.le
  unfold metadataAnnounce Catalogue.announce
  simp only [whole]
  by_cases valid : ValidAnnouncement document chunks
  · obtain ⟨sensible, fits⟩ := (validAnnouncement_iff complete).mp valid
    rw [if_neg sensible, if_neg (by rw [fits]; simp), if_pos valid]
    cases found : store.find document.objectId with
    | none =>
      rw [MetadataStore.catalogue_of_absent found]
      refine ⟨wellFormed.put (announcedEntry_sound complete), ?_, rfl⟩
      dsimp only
      rw [MetadataStore.catalogue_put, announcedEntry_holding complete]
      rfl
    | some old =>
      rw [MetadataStore.catalogue_of_find found]
      have agrees : old.holding.Agrees document chunks ↔
          ¬(old.document.size ≠ document.size ∨
            old.document.chunkCount ≠ document.chunkCount) ∧
          sameContents old.chunks chunks = true := by
        rw [sameContents_iff, not_or, not_not, not_not]
        exact ⟨fun known => ⟨⟨known.size, known.count⟩, known.content⟩,
          fun ⟨⟨size, count⟩, content⟩ => ⟨size, count, content⟩⟩
      dsimp only
      by_cases same : old.holding.Agrees document chunks
      · obtain ⟨numbers, content⟩ := agrees.mp same
        have count : old.document.chunkCount = document.chunkCount := same.count
        rw [if_neg numbers, if_neg (by rw [content]; simp), if_pos same]
        have sound := wellFormed.find_sound found
        refine ⟨wellFormed.put (mergedEntry_sound sound count complete), ?_, rfl⟩
        have ownId : MetadataStore.key old = document.objectId := KeyedList.lookup_key found
        have place : MetadataStore.key (mergedEntry old (announcedEntry document chunks owner)
            owner) = document.objectId := by
          unfold MetadataStore.key mergedEntry
          dsimp only
          split
          · exact ownId
          · rfl
        dsimp only
        rw [MetadataStore.catalogue_put, mergedEntry_holding sound count complete, place]
      · rw [if_neg same]
        split
        · exact ⟨wellFormed, rfl, rfl⟩
        · rename_i numbers
          split
          · exact ⟨wellFormed, rfl, rfl⟩
          · rename_i content
            exact absurd (agrees.mpr ⟨numbers, by simpa using content⟩) same
  · rw [if_neg valid]
    split
    · exact ⟨wellFormed, rfl, rfl⟩
    · rename_i sensible
      split
      · exact ⟨wellFormed, rfl, rfl⟩
      · rename_i fits
        exact absurd ((validAnnouncement_iff complete).mpr ⟨sensible, by simpa using fits⟩) valid

/-! ### Calls that read the table -/

theorem findDocument_refines (store : MetadataStore) (id : ObjectID) :
    metadataFindDocument store id = store.catalogue.findDocument id := by
  unfold metadataFindDocument Catalogue.findDocument
  cases found : store.find id with
  | none => rw [MetadataStore.catalogue_of_absent found]
  | some entry =>
    rw [MetadataStore.catalogue_of_find found]
    rfl

theorem chunkPeers_refines (store : MetadataStore) (id : ObjectID) (index : UInt64) :
    (metadataChunkPeers store id index).map (fun peers => {peer | peer ∈ peers}) =
      store.catalogue.chunkPeers id index := by
  unfold metadataChunkPeers Catalogue.chunkPeers
  cases found : store.find id with
  | none =>
    rw [MetadataStore.catalogue_of_absent found]
    rfl
  | some entry =>
    rw [MetadataStore.catalogue_of_find found]
    simp only [not_inside_iff]
    by_cases inside : index.toNat < entry.document.chunkCount.toNat
    · have known : index.toNat < entry.holding.document.chunkCount.toNat := inside
      rw [if_neg (not_not.mpr inside), if_pos known]
      refine congrArg Except.ok ?_
      ext peer
      simp only [Set.mem_ofPred_eq, List.mem_map, List.mem_filter, decide_eq_true_eq,
        MetadataEntry.holding]
      constructor
      · rintro ⟨item, ⟨member, rfl⟩, rfl⟩
        exact member
      · intro member
        exact ⟨⟨index, peer⟩, ⟨member, rfl⟩, rfl⟩
    · have unknown : ¬index.toNat < entry.holding.document.chunkCount.toNat := inside
      rw [if_pos inside, if_neg unknown]
      rfl

theorem chunkDescriptor_refines (wellFormed : store.WellFormed) (id : ObjectID)
    (index : UInt64) :
    metadataChunkDescriptor store id index = store.catalogue.chunkDescriptor id index := by
  unfold metadataChunkDescriptor Catalogue.chunkDescriptor
  cases found : store.find id with
  | none =>
    rw [MetadataStore.catalogue_of_absent found]
    rfl
  | some entry =>
    rw [MetadataStore.catalogue_of_find found]
    have published : (some entry.holding).bind Holding.chunks = entry.chunks := rfl
    rw [published]
    cases isChunks : entry.chunks with
    | none => simp only [isChunks]
    | some chunks =>
      simp only [isChunks]
      split
      · rfl
      · rename_i outside
        rw [UInt64.lt_iff_toNat_lt, UInt32.toNat_toUInt64,
          ← (wellFormed.find_sound found).complete chunks isChunks] at outside
        rw [List.getElem?_eq_none (not_lt.mp outside)]

/-- The entries of a name, in the order in which the search meets them. -/
def MetadataStore.carriers (store : MetadataStore) (name : List UInt8) : List MetadataEntry :=
  store.entries.filter fun entry => entry.document.filename = name

theorem findNameLoop_some (name : List UInt8) (id : ObjectID) (rows : List MetadataEntry) :
    findNameLoop name (some id) rows =
      match rows.filter fun entry => entry.document.filename = name with
      | [] => .ok id
      | _ :: _ => .error .enotuniq := by
  induction rows with
  | nil => rfl
  | cons row rest inductionHypothesis =>
    rw [findNameLoop, List.filter_cons]
    by_cases carries : row.document.filename = name
    · simp [carries]
    · simpa [carries] using inductionHypothesis

theorem findNameLoop_none (name : List UInt8) (rows : List MetadataEntry) :
    findNameLoop name none rows =
      match rows.filter fun entry => entry.document.filename = name with
      | [] => .error .enoent
      | [entry] => .ok (MetadataStore.key entry)
      | _ :: _ :: _ => .error .enotuniq := by
  induction rows with
  | nil => rfl
  | cons row rest inductionHypothesis =>
    rw [findNameLoop, List.filter_cons]
    by_cases carries : row.document.filename = name
    · simp only [carries, if_true, decide_true, Option.isSome_none, Bool.false_eq_true, if_false,
        findNameLoop_some]
      cases rest.filter fun entry => entry.document.filename = name <;> rfl
    · simpa [carries] using inductionHypothesis

/-- No two entries of a well-formed table have the same id. -/
theorem MetadataStore.WellFormed.nodup_entries (wellFormed : store.WellFormed) :
    (store.entries.map MetadataStore.key).Nodup := by
  rw [MetadataStore.entries, List.map_flatMap, List.nodup_flatMap]
  refine ⟨fun index _ => KeyedList.distinct_iff_nodup.mp (wellFormed.distinct index), ?_⟩
  refine List.nodup_range.imp fun {first second} apart id inFirst inSecond => apart ?_
  obtain ⟨one, isOne, rfl⟩ := List.mem_map.mp inFirst
  obtain ⟨other, isOther, same⟩ := List.mem_map.mp inSecond
  rw [← wellFormed.placed first one isOne, ← wellFormed.placed second other isOther, same]

theorem MetadataStore.mem_carriers (wellFormed : store.WellFormed) {name : List UInt8}
    {id : ObjectID} : store.catalogue.Carries name id ↔
      ∃ entry ∈ store.carriers name, MetadataStore.key entry = id := by
  simp only [Catalogue.Carries, catalogue, Option.map_eq_some_iff, carriers, List.mem_filter,
    decide_eq_true_eq, mem_entries wellFormed]
  constructor
  · rintro ⟨-, ⟨entry, found, rfl⟩, named⟩
    have own : key entry = id := KeyedList.lookup_key found
    exact ⟨entry, ⟨own ▸ found, named⟩, own⟩
  · rintro ⟨entry, ⟨found, named⟩, rfl⟩
    exact ⟨_, ⟨entry, found, rfl⟩, named⟩

theorem findName_refines (wellFormed : store.WellFormed) (name : List UInt8) :
    metadataFindName store name = store.catalogue.findName name := by
  have carriers : store.entries.filter (fun entry => entry.document.filename = name) =
    store.carriers name := rfl
  have nodup : ((store.carriers name).map MetadataStore.key).Nodup :=
    wellFormed.nodup_entries.sublist (List.filter_sublist.map _)
  have carried : ∀ id, store.catalogue.Carries name id ↔
      ∃ entry ∈ store.carriers name, MetadataStore.key entry = id :=
    fun _ => MetadataStore.mem_carriers wellFormed
  unfold metadataFindName Catalogue.findName
  rw [findNameLoop_none, carriers]
  match isCarriers : store.carriers name with
  | [] =>
    have nobody : ∀ id, ¬store.catalogue.Carries name id := by
      intro id carries
      obtain ⟨entry, member, -⟩ := (carried id).mp carries
      rw [isCarriers] at member
      cases member
    rw [if_neg fun ⟨first, _, _, isFirst, _⟩ => nobody first isFirst,
      dif_neg fun ⟨id, carries⟩ => nobody id carries]
  | [entry] =>
    have only : ∀ id, store.catalogue.Carries name id ↔ MetadataStore.key entry = id := by
      intro id
      rw [carried, isCarriers]
      simp only [List.mem_singleton, exists_eq_left]
    have some : ∃ id, store.catalogue.Carries name id := ⟨_, (only _).mpr rfl⟩
    rw [if_neg fun ⟨first, second, apart, isFirst, isSecond⟩ =>
      apart (((only first).mp isFirst).symm.trans ((only second).mp isSecond)), dif_pos some]
    exact congrArg Except.ok ((only _).mp some.choose_spec)
  | first :: second :: rest =>
    rw [isCarriers, List.map_cons, List.map_cons, List.nodup_cons] at nodup
    have twice : ∃ one other, one ≠ other ∧ store.catalogue.Carries name one ∧
        store.catalogue.Carries name other := by
      refine ⟨MetadataStore.key first, MetadataStore.key second, fun same => nodup.1 ?_,
        (carried _).mpr ⟨first, ?_, rfl⟩, (carried _).mpr ⟨second, ?_, rfl⟩⟩
      · rw [same]
        exact List.mem_cons_self
      · rw [isCarriers]
        exact List.mem_cons_self
      · rw [isCarriers]
        exact List.mem_cons_of_mem _ List.mem_cons_self
    rw [if_pos twice]

end Operations

/-! ### Sequences of calls -/

/-- A call keeps the table well formed and agrees with the map. -/
theorem MetadataCall.apply_refines {store : MetadataStore} (wellFormed : store.WellFormed)
    {call : MetadataCall} (complete : call.Complete) :
    (call.apply store).1.WellFormed ∧
      call.specified store.catalogue =
        ((call.apply store).1.catalogue, (call.apply store).2.asSet) := by
  have changes : ∀ {outcome : MetadataStore × Except Errno Unit}
      {expected : Catalogue × Except Errno Unit}, Refines outcome expected →
      outcome.1.WellFormed ∧ (expected.1, MetadataResult.done expected.2) =
        (outcome.1.catalogue, (MetadataResult.done outcome.2).asSet) := by
    intro outcome expected refines
    refine ⟨refines.wellFormed, ?_⟩
    rw [refines.catalogue, refines.result]
    rfl
  cases call with
  | registerDocument id name size => exact changes (registerDocument_refines wellFormed id name size)
  | findDocument id =>
    refine ⟨wellFormed, ?_⟩
    rw [specified, ← findDocument_refines]
    rfl
  | removeDocument id => exact changes (removeDocument_refines wellFormed id)
  | registerChunk id index peer => exact changes (registerChunk_refines wellFormed id index peer)
  | unregisterChunk id index peer => exact changes (unregisterChunk_refines wellFormed id index peer)
  | announce document chunks owner =>
    exact changes (announce_refines wellFormed document chunks owner complete)
  | findName name =>
    refine ⟨wellFormed, ?_⟩
    rw [specified, ← findName_refines wellFormed]
    rfl
  | chunkPeers id index =>
    refine ⟨wellFormed, ?_⟩
    rw [specified, ← chunkPeers_refines]
    rfl
  | chunkDescriptor id index =>
    refine ⟨wellFormed, ?_⟩
    rw [specified, ← chunkDescriptor_refines wellFormed]
    rfl
  | removePeer peer =>
    refine ⟨wellFormed.removePeer peer, ?_⟩
    rw [specified, ← MetadataStore.catalogue_removePeer]
    rfl

theorem resultsOf_refines {store : MetadataStore} (wellFormed : store.WellFormed)
    {calls : List MetadataCall} (complete : ∀ call ∈ calls, call.Complete) :
    (resultsOf MetadataCall.apply store calls).map MetadataResult.asSet =
      resultsOf MetadataCall.specified store.catalogue calls := by
  induction calls generalizing store with
  | nil => rfl
  | cons call rest inductionHypothesis =>
    obtain ⟨next, same⟩ := MetadataCall.apply_refines wellFormed (complete call List.mem_cons_self)
    rw [resultsOf, resultsOf, List.map_cons, same,
      inductionHypothesis next fun other member => complete other (List.mem_cons_of_mem _ member)]

/-- For every sequence of calls, the results of the table are those of the map, with lists of peers
read as sets. -/
theorem metadata_store_is_a_map (calls : List MetadataCall)
    (complete : ∀ call ∈ calls, call.Complete) :
    (resultsOf MetadataCall.apply MetadataStore.empty calls).map MetadataResult.asSet =
      resultsOf MetadataCall.specified (fun _ => none) calls :=
  resultsOf_refines MetadataStore.WellFormed.empty complete

/-- A file of one byte. -/
def oneByteFile (id : ObjectID) (name : List UInt8) : FileMetadata := ⟨id, name, 1, 1, none, 1, 0⟩

/-- The chunk of a file of one byte. -/
def oneByteChunk : MetadataChunk := ⟨0, 0, 1, 2, Octets.read objectIdSize [7]⟩

/-- Two documents of one bucket: both are found, and a second owner joins the first. -/
theorem metadata_store_is_a_map_collision :
    let first : ObjectID := Octets.read objectIdSize [1]
    let second : ObjectID := Octets.read objectIdSize [0, 33]
    let calls : List MetadataCall :=
      [.registerDocument first [97] 1,
        .announce (oneByteFile second [97]) [oneByteChunk] (Octets.fill _ 1),
        .announce (oneByteFile second [98]) [oneByteChunk] (Octets.fill _ 2), .chunkPeers second 0,
        .findDocument first, .findName [97]]
    MetadataStore.bucket first = MetadataStore.bucket second ∧
      (resultsOf MetadataCall.apply MetadataStore.empty calls).map MetadataResult.asSet =
        resultsOf MetadataCall.specified (fun _ => none) calls := by
  refine ⟨by decide +kernel, metadata_store_is_a_map _ ?_⟩
  intro call member
  simp only [List.mem_cons, List.not_mem_nil, or_false] at member
  rcases member with rfl | rfl | rfl | rfl | rfl | rfl <;> trivial

end SuperPeerNet
