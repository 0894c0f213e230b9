/-
This file models `file_client_download` and proves when a download is all or nothing.

A download writes into a `.part` file that it has created, checks the file when the
workers are done, links it to the destination and removes the other name. Every system
call may fail, and a call that fails changes nothing. What goes wrong before the link
leaves the directory as it was. After the link the destination is there, and the common
error exit removes the `.part` file only: a failure of a later call of the chain returns
an error and leaves the complete file at the destination.
-/

import SuperPeerNet.Client.Workers
import SuperPeerNet.Library.Transition

namespace SuperPeerNet

/-! ### Files -/

/-- A path, as the bytes of a string. -/
abbrev PathName := List UInt8

/-- The contents of the files. -/
abbrev Files := PathName → Option (List UInt8)

/-- Write a file, or remove it. -/
def Files.set (files : Files) (path : PathName) (content : Option (List UInt8)) : Files :=
  fun other => if other = path then content else files other

theorem Files.set_same (files : Files) (path : PathName) (content : Option (List UInt8)) :
    files.set path content path = content := if_pos rfl

theorem Files.set_other (files : Files) {path other : PathName} (different : other ≠ path)
    (content : Option (List UInt8)) : files.set path content other = files other :=
  if_neg different

theorem Files.set_set (files : Files) (path : PathName) (first second : Option (List UInt8)) :
    (files.set path first).set path second = files.set path second := by
  funext other
  unfold set
  split <;> rfl

/-- A file that was not there is created and removed. -/
theorem Files.set_none {files : Files} {path : PathName} (free : files path = none) :
    files.set path none = files := by
  funext other
  unfold set
  split
  · rename_i same
    rw [same, free]
  · rfl

theorem Files.set_comm (files : Files) {first second : PathName} (different : first ≠ second)
    (one other : Option (List UInt8)) :
    (files.set first one).set second other = (files.set second other).set first one := by
  funext path
  unfold set
  by_cases isSecond : path = second
  · rw [if_pos isSecond, if_neg fun isFirst => different (isFirst.symm.trans isSecond),
      if_pos isSecond]
  · rw [if_neg isSecond, if_neg isSecond]

/-- The path of the file that a download writes into. -/
def partPath (destination : PathName) : PathName := destination ++ [46, 112, 97, 114, 116]

theorem partPath_ne (destination : PathName) : partPath destination ≠ destination := by
  intro same
  have lengths := congrArg List.length same
  rw [partPath, List.length_append] at lengths
  exact absurd lengths (by simp)

/-! ### The conditions of a download -/

/-- `transfer_worker_count`, for the number of processors and the value of `PEER_TRANSFER_THREADS`
if it is a number. -/
def transferWorkerCount (cpuCount : Int) (configured : Option Nat) (chunkCount : UInt64) : Nat :=
  let wanted := min (if cpuCount > 0 then cpuCount.toNat else 1) 8
  let wanted := match configured with
    | some value => if 1 ≤ value ∧ value ≤ maxConfiguredWorkers then value else wanted
    | none => wanted
  let wanted := min wanted chunkCount.toNat
  if wanted = 0 then 1 else wanted

/-- The system calls of a download that may fail. -/
inductive DownloadCall where
  | access | allocate | openPart | truncate | initMutex | syncPart | hashPart | link | syncLinked
  | unlink | syncUnlinked | cleanup
  deriving DecidableEq

/-- A run of `execute_download_workers` to its return, from a file of zeros. -/
structure DownloadRun [Sha256] [Lz4] (lookup : TransferLookupResult) (count : Nat) where
  pool : Pool (List UInt8)
  status : Except (Option Errno) Unit
  reached : Transition.Reaches (executeDownloadWorkers lookup) (fun _ _ => True)
    (.start count (List.replicate lookup.document.fileSize.toNat 0)) pool
  returned : pool.caller = .returned status

/-- What a download meets: the result of the lookup, the run of the workers and the calls that
fail. -/
structure DownloadEnvironment [Sha256] [Lz4] where
  directory : PathName
  lookup : Except Errno TransferLookupResult
  cpuCount : Int
  configured : Option Nat
  run : ∀ result, lookup = .ok result →
    DownloadRun result (transferWorkerCount cpuCount configured result.document.chunkCount)
  fails : DownloadCall → Bool

/-! ### The download -/

/-- Take steps until one of them fails. -/
def attemptAll : List (Files → Option Files) → Files → Files × Bool
  | [], files => (files, true)
  | step :: rest, files =>
    match step files with
    | none => (files, false)
    | some next => attemptAll rest next

/-- The destination: the given one, or the name of the document in the directory of the session. -/
def downloadTarget (directory : PathName) (destination : Option PathName) (name : List UInt8) :
    Option PathName :=
  match destination with
  | some path => some path
  | none =>
    if 47 ∈ name ∨ name = [46] ∨ name = [46, 46] then none
    else if (directory ++ 47 :: name).length ≥ 4096 then none
    else some (directory ++ 47 :: name)

section Download

variable [Sha256] [Lz4]

namespace DownloadEnvironment

variable (environment : DownloadEnvironment)

/-- A step, unless the call fails. -/
def call (name : DownloadCall) (step : Files → Option Files) (files : Files) : Option Files :=
  if environment.fails name then none else step files

/-- The calls of the chain after the link. -/
def settlement (destination : PathName) : List (Files → Option Files) :=
  [environment.call .syncLinked some,
    environment.call .unlink fun files => some (files.set (partPath destination) none),
    environment.call .syncUnlinked some]

/-- The chain of calls at the end of a download: whether the file is what the document says is
decided by `object_id_file` on its name. -/
def publication (document : TransferDocument) (destination : PathName) :
    List (Files → Option Files) :=
  [environment.call .syncPart some,
    environment.call .hashPart fun files =>
      (files (partPath destination)).bind fun content =>
        if content.length = document.fileSize.toNat ∧ contentSha256 content = document.id then
          some files
        else none,
    environment.call .link fun files =>
      if (files destination).isSome then none
      else some (files.set destination (files (partPath destination)))] ++
    environment.settlement destination

/-- The part of a download that works on the `.part` file. -/
def transferPart (result : TransferLookupResult) (run : DownloadRun result
    (transferWorkerCount environment.cpuCount environment.configured result.document.chunkCount))
    (destination : PathName) (files : Files) : Files × Bool :=
  if result.document.fileSize.toNat > 2 ^ 63 - 1 ∨ environment.fails .truncate then (files, false)
  else
    let truncated := files.set (partPath destination)
      (some (List.replicate result.document.fileSize.toNat 0))
    if environment.fails .initMutex then (truncated, false)
    else
      let written := truncated.set (partPath destination) (some run.pool.work.world)
      match run.status with
      | .error _ => (written, false)
      | .ok _ => attemptAll (environment.publication result.document destination) written

/-- `file_client_download`: the files after it, and whether it returns zero. -/
def fileClientDownload (destination : Option PathName) (files : Files) : Files × Bool :=
  match known : environment.lookup with
  | .error _ => (files, false)
  | .ok result =>
    match downloadTarget environment.directory destination result.document.name with
    | none => (files, false)
    | some target =>
      if target = [] ∨ ((files target).isSome ∧ environment.fails .access = false) ∨
          environment.fails .allocate then (files, false)
      else if environment.fails .openPart ∨ (files (partPath target)).isSome then (files, false)
      else
        let outcome := environment.transferPart result (environment.run result known) target
          (files.set (partPath target) (some []))
        if outcome.2 then outcome
        else if environment.fails .cleanup then outcome
        else (outcome.1.set (partPath target) none, false)

/-! ### Reaching the link -/

/-- Every step up to the link succeeds: the part file can be created and is not there yet, the
workers succeed, the file is what the document says, and the destination is not there. -/
structure ReachesLink (destination : Option PathName) (files : Files)
    (result : TransferLookupResult) (target : PathName) : Prop where
  known : environment.lookup = .ok result
  named : downloadTarget environment.directory destination result.document.name = some target
  nonempty : target ≠ []
  absent : files target = none
  allocated : environment.fails .allocate = false
  opened : environment.fails .openPart = false
  free : files (partPath target) = none
  size : result.document.fileSize.toNat ≤ 2 ^ 63 - 1
  truncated : environment.fails .truncate = false
  initialized : environment.fails .initMutex = false
  transferred : (environment.run result known).status = .ok ()
  synced : environment.fails .syncPart = false
  hashed : environment.fails .hashPart = false
  length : (environment.run result known).pool.work.world.length = result.document.fileSize.toNat
  digest : contentSha256 (environment.run result known).pool.work.world = result.document.id
  linked : environment.fails .link = false

/-- A call after the link fails. -/
def FailsAfterLink : Prop :=
  environment.fails .syncLinked = true ∨ environment.fails .unlink = true ∨
    environment.fails .syncUnlinked = true

instance : Decidable environment.FailsAfterLink := inferInstanceAs (Decidable (_ ∨ _))

variable {environment} {destination : Option PathName} {files : Files}

/-- The steps after the link leave the destination, and the part file is gone at the latest after the
cleanup. -/
theorem attemptAll_settlement (target : PathName) (files : Files) :
    (attemptAll (environment.settlement target) files).1.set (partPath target) none =
        files.set (partPath target) none ∧
      ((attemptAll (environment.settlement target) files).2 = true →
        (attemptAll (environment.settlement target) files).1 =
          files.set (partPath target) none) ∧
      ((attemptAll (environment.settlement target) files).2 = true ↔
        ¬environment.FailsAfterLink) := by
  unfold FailsAfterLink settlement
  cases first : environment.fails .syncLinked with
  | true => simp [attemptAll, call, first]
  | false =>
    cases second : environment.fails .unlink with
    | true => simp [attemptAll, call, first, second]
    | false =>
      cases third : environment.fails .syncUnlinked <;>
        simp [attemptAll, call, first, second, third, Files.set_set]

/-- The publication of a file that is what the document says goes on after the link. -/
theorem publication_of_reaches {result : TransferLookupResult} {target : PathName}
    (reaches : environment.ReachesLink destination files result target) {before : Files}
    (absent : before target = none)
    (part : before (partPath target) =
      some (environment.run result reaches.known).pool.work.world) :
    attemptAll (environment.publication result.document target) before =
      attemptAll (environment.settlement target)
        (before.set target (some (environment.run result reaches.known).pool.work.world)) := by
  simp [publication, attemptAll, call, reaches.synced, reaches.hashed, reaches.linked, part,
    absent, reaches.length, reaches.digest]

/-- The publication of a file stops before the link, when a call up to the link fails or the file is
not what the document says. -/
theorem publication_stops {document : TransferDocument} {target : PathName} {before : Files}
    {content : List UInt8} (part : before (partPath target) = some content)
    (stops : ¬(environment.fails .syncPart = false ∧ environment.fails .hashPart = false ∧
      (content.length = document.fileSize.toNat ∧ contentSha256 content = document.id) ∧
      environment.fails .link = false ∧ before target = none)) :
    attemptAll (environment.publication document target) before = (before, false) := by
  cases synced : environment.fails .syncPart with
  | true => simp [publication, attemptAll, call, synced]
  | false =>
    cases hashed : environment.fails .hashPart with
    | true => simp [publication, attemptAll, call, synced, hashed]
    | false =>
      by_cases verified : content.length = document.fileSize.toNat ∧
          contentSha256 content = document.id
      · cases linked : environment.fails .link with
        | true => simp [publication, attemptAll, call, synced, hashed, linked, part, verified]
        | false =>
          cases there : before target with
          | none => exact absurd ⟨synced, hashed, verified, linked, there⟩ stops
          | some other =>
            simp [publication, attemptAll, call, synced, hashed, linked, part, verified, there]
      · simp [publication, attemptAll, call, synced, hashed, part, verified]

/-- A download with a known result. -/
theorem fileClientDownload_of_known {result : TransferLookupResult}
    (known : environment.lookup = .ok result) :
    environment.fileClientDownload destination files =
      match downloadTarget environment.directory destination result.document.name with
      | none => (files, false)
      | some target =>
        if target = [] ∨ ((files target).isSome ∧ environment.fails .access = false) ∨
            environment.fails .allocate then (files, false)
        else if environment.fails .openPart ∨ (files (partPath target)).isSome then (files, false)
        else
          let outcome := environment.transferPart result (environment.run result known) target
            (files.set (partPath target) (some []))
          if outcome.2 then outcome
          else if environment.fails .cleanup then outcome
          else (outcome.1.set (partPath target) none, false) := by
  unfold fileClientDownload
  split
  · rename_i code failed
    rw [known] at failed
    cases failed
  · rename_i other again
    obtain rfl : other = result := Except.ok.inj (again.symm.trans known)
    rfl

/-- A download that reaches the link leaves the whole file at the destination, and it returns zero
if and only if no later call fails. -/
theorem fileClientDownload_of_reaches {result : TransferLookupResult} {target : PathName}
    (cleaned : environment.fails .cleanup = false)
    (reaches : environment.ReachesLink destination files result target) :
    environment.fileClientDownload destination files =
      (files.set target (some (environment.run result reaches.known).pool.work.world),
        decide ¬environment.FailsAfterLink) := by
  have different := partPath_ne target
  generalize isContent : (environment.run result reaches.known).pool.work.world = content
  have transferred : environment.transferPart result (environment.run result reaches.known) target
      (files.set (partPath target) (some [])) =
        attemptAll (environment.publication result.document target)
          (files.set (partPath target) (some content)) := by
    unfold transferPart
    rw [if_neg]
    · simp only [reaches.initialized, reaches.transferred, Files.set_set, if_false,
        Bool.false_eq_true, isContent]
    · simp only [reaches.truncated, Bool.false_eq_true, or_false, Nat.not_lt]
      exact reaches.size
  have published := publication_of_reaches reaches
    ((Files.set_other files different.symm (some content)).trans reaches.absent)
    ((Files.set_same files _ _).trans (congrArg some isContent.symm))
  rw [isContent] at published
  have ends : ((files.set (partPath target) (some content)).set target (some content)).set
      (partPath target) none = files.set target (some content) := by
    rw [Files.set_comm _ different, Files.set_set, Files.set_none]
    exact (Files.set_other files different _).trans reaches.free
  have settled := @attemptAll_settlement _ _ environment target
    ((files.set (partPath target) (some content)).set target (some content))
  rw [fileClientDownload_of_known reaches.known, reaches.named]
  dsimp only
  rw [if_neg, if_neg, transferred, published]
  · rw [ends] at settled
    generalize attemptAll (environment.settlement target) _ = outcome at *
    obtain ⟨clean, done, succeeds⟩ := settled
    by_cases later : environment.FailsAfterLink
    · have failed : outcome.2 = false :=
        Bool.eq_false_of_not_eq_true fun wrong => succeeds.mp wrong later
      rw [failed, cleaned, clean]
      simp [later]
    · have succeeded := succeeds.mpr later
      rw [if_pos succeeded]
      refine Prod.ext (done succeeded) ?_
      rw [succeeded]
      simp [later]
  · rw [reaches.opened, reaches.free]
    simp
  · rw [reaches.absent, reaches.allocated]
    simp [reaches.nonempty]

/-- The work on the part file stops before the link, when something up to the link goes wrong. -/
theorem transferPart_stops {result : TransferLookupResult} {target : PathName}
    (known : environment.lookup = .ok result)
    (named : downloadTarget environment.directory destination result.document.name = some target)
    (nonempty : target ≠ []) (allocated : environment.fails .allocate = false)
    (opened : environment.fails .openPart = false) (free : files (partPath target) = none)
    (stops : ¬environment.ReachesLink destination files result target) :
    (environment.transferPart result (environment.run result known) target
        (files.set (partPath target) (some []))).2 = false ∧
      (environment.transferPart result (environment.run result known) target
        (files.set (partPath target) (some []))).1.set (partPath target) none = files := by
  have restored : ∀ content, (files.set (partPath target) content).set (partPath target) none =
      files := by
    intro content
    rw [Files.set_set, Files.set_none free]
  unfold transferPart
  by_cases refused : result.document.fileSize.toNat > 2 ^ 63 - 1 ∨ environment.fails .truncate
  · rw [if_pos refused]
    exact ⟨rfl, restored _⟩
  · rw [if_neg refused]
    rw [not_or, Nat.not_lt, Bool.not_eq_true] at refused
    simp only [Files.set_set]
    cases initialized : environment.fails .initMutex with
    | true => exact ⟨rfl, restored _⟩
    | false =>
      simp only [Bool.false_eq_true, if_false]
      cases transferred : (environment.run result known).status with
      | error code => exact ⟨rfl, restored _⟩
      | ok done =>
        dsimp only
        rw [publication_stops (Files.set_same ..)]
        · exact ⟨rfl, restored _⟩
        · rintro ⟨synced, hashed, ⟨length, digest⟩, linked, absent⟩
          rw [Files.set_other files (partPath_ne target).symm] at absent
          exact stops ⟨known, named, nonempty, absent, allocated, opened, free, refused.1,
            refused.2, initialized, transferred, synced, hashed, length, digest, linked⟩

/-- A download that does not reach the link leaves all files as they were. -/
theorem fileClientDownload_of_not_reaches (cleaned : environment.fails .cleanup = false)
    (stops : ∀ result target, ¬environment.ReachesLink destination files result target) :
    environment.fileClientDownload destination files = (files, false) := by
  cases known : environment.lookup with
  | error code =>
    unfold fileClientDownload
    split
    · rfl
    · rename_i other again
      rw [known] at again
      cases again
  | ok result =>
    rw [fileClientDownload_of_known known]
    cases named : downloadTarget environment.directory destination result.document.name with
    | none => rfl
    | some target =>
      dsimp only
      split
      · rfl
      · rename_i accepted
        rw [not_or, not_or, Bool.not_eq_true] at accepted
        split
        · rfl
        · rename_i created
          rw [not_or, Bool.not_eq_true, Bool.not_eq_true, Option.isSome_eq_false_iff,
            Option.isNone_iff_eq_none] at created
          obtain ⟨failed, clean⟩ := transferPart_stops known named accepted.1 accepted.2.2
            created.1 created.2 (stops result target)
          rw [failed, cleaned, clean]
          rfl

end DownloadEnvironment

/-! ### All or nothing -/

/-- If the download returns zero, then the destination holds a file of the size and the digest of
the document. If it returns an error and the destination was not there, then it is still not there,
and a part file that the download has created is gone. -/
structure AllOrNothing (environment : DownloadEnvironment) (destination : Option PathName)
    (files : Files) : Prop where
  complete : (environment.fileClientDownload destination files).2 = true →
    ∃ result target content, environment.lookup = .ok result ∧
      downloadTarget environment.directory destination result.document.name = some target ∧
      (environment.fileClientDownload destination files).1 target = some content ∧
      content.length = result.document.fileSize.toNat ∧
      contentSha256 content = result.document.id
  nothing : (environment.fileClientDownload destination files).2 = false →
    ∀ result target, environment.lookup = .ok result →
      downloadTarget environment.directory destination result.document.name = some target →
      files target = none →
      (environment.fileClientDownload destination files).1 target = none ∧
        (files (partPath target) = none →
          (environment.fileClientDownload destination files).1 (partPath target) = none)

/-- A download that reaches the link and fails later returns an error, and leaves the verified file
at the destination and no part file. -/
theorem failsAfterLink_leaves_file {environment : DownloadEnvironment}
    {destination : Option PathName} {files : Files} {result : TransferLookupResult}
    {target : PathName} (cleaned : environment.fails .cleanup = false)
    (reaches : environment.ReachesLink destination files result target)
    (later : environment.FailsAfterLink) :
    ∃ content, environment.fileClientDownload destination files =
        (files.set target (some content), false) ∧
      files.set target (some content) (partPath target) = none ∧
      content.length = result.document.fileSize.toNat ∧
      contentSha256 content = result.document.id := by
  refine ⟨(environment.run result reaches.known).pool.work.world, ?_, ?_, reaches.length,
    reaches.digest⟩
  · rw [DownloadEnvironment.fileClientDownload_of_reaches cleaned reaches]
    exact congrArg (Prod.mk _) (decide_eq_false (not_not.mpr later))
  · rw [Files.set_other files (partPath_ne target)]
    exact reaches.free

/-- A download is all or nothing unless it reaches the link and a later call fails. Then it returns
an error, and leaves the verified file at the destination and no part file. -/
theorem download_all_or_nothing (environment : DownloadEnvironment)
    (destination : Option PathName) (files : Files)
    (cleaned : environment.fails .cleanup = false) :
    (AllOrNothing environment destination files ↔
      ¬∃ result target, environment.ReachesLink destination files result target ∧
        environment.FailsAfterLink) ∧
    ∀ result target, environment.ReachesLink destination files result target →
      environment.FailsAfterLink → ∃ content,
        environment.fileClientDownload destination files =
          (files.set target (some content), false) ∧
        files.set target (some content) (partPath target) = none ∧
        content.length = result.document.fileSize.toNat ∧
        contentSha256 content = result.document.id := by
  refine ⟨⟨?_, fun settled => ?_⟩, fun _ _ => failsAfterLink_leaves_file cleaned⟩
  · rintro all ⟨result, target, reaches, later⟩
    obtain ⟨content, outcome, -⟩ := failsAfterLink_leaves_file cleaned reaches later
    obtain ⟨gone, -⟩ := all.nothing (by rw [outcome]) result target reaches.known reaches.named
      reaches.absent
    rw [outcome] at gone
    cases (Files.set_same files target _).symm.trans gone
  · by_cases reaching : ∃ result target,
        environment.ReachesLink destination files result target
    · obtain ⟨result, target, reaches⟩ := reaching
      have outcome := DownloadEnvironment.fileClientDownload_of_reaches cleaned reaches
      have quiet : ¬environment.FailsAfterLink := fun later =>
        settled ⟨result, target, reaches, later⟩
      refine ⟨fun _ => ⟨result, target, _, reaches.known, reaches.named, ?_, reaches.length,
        reaches.digest⟩, fun failed => ?_⟩
      · rw [outcome]
        exact Files.set_same ..
      · rw [outcome] at failed
        simp [quiet] at failed
    · have stops : ∀ result target,
          ¬environment.ReachesLink destination files result target :=
        fun result target reaches => reaching ⟨result, target, reaches⟩
      have outcome := DownloadEnvironment.fileClientDownload_of_not_reaches cleaned stops
      constructor
      · intro done
        rw [outcome] at done
        cases done
      · intro _ result target _ _ absent
        rw [outcome]
        exact ⟨absent, id⟩

end Download

/-! ### A file of one byte -/

/-- The chunk of the file that holds the letter `A`. -/
def byteChunk : TransferChunk :=
  ⟨Sha256.reference.digest [65], 0, 0, 1, 2, Sha256.reference.digest [65], [16, 65]⟩

/-- The file and the one peer that has it. -/
def byteLookup : TransferLookupResult where
  document := ⟨Sha256.reference.digest [65], [97, 46, 112, 100, 102], 1, 1, compressionLz4⟩
  chunks := [⟨⟨0, 0, 1, 2, Sha256.reference.digest [65]⟩,
    [⟨Octets.fill nodeIdSize 2, [49], 1⟩]⟩]

/-- The peer sends the chunk. -/
def byteReply : Nat → DownloadConditions := fun _ =>
  ⟨.ok ⟨.downloadRep, Octets.fill nodeIdSize 2, Octets.fill nodeIdSize 1,
    Octets.fill transactionIdSize 0, chunkBytes byteChunk transferDownloadChunk⟩, none⟩

/-- One worker downloads the chunk, and the caller returns. -/
def byteActions : List (PoolAction (Nat → DownloadConditions)) :=
  [.create none, .turn 0 byteReply, .turn 0 byteReply, .turn 0 byteReply, .turn 0 byteReply,
    .join none, .leave]

/-- The pool after these actions. -/
def bytePool : Option (Pool (List UInt8)) :=
  letI := Sha256.reference
  letI := Lz4.reference
  Transition.run (Transition.guarded (executeDownloadWorkers byteLookup) fun _ _ => True)
    (.start 1 [0]) byteActions

/-- The run of the workers that these actions make. -/
def byteRun : @DownloadRun Sha256.reference Lz4.reference byteLookup 1 :=
  letI := Sha256.reference
  letI := Lz4.reference
  { pool := bytePool.get (by decide +kernel)
    status := .ok ()
    reached := Transition.Reaches.refl.of_run (fun _ _ permitted => permitted)
      (Option.some_get (by decide +kernel)).symm
    returned := Caller.returned_of_succeeded (by decide +kernel) }

/-- A download of the file, in which the given calls fail. -/
def byteEnvironment (fails : DownloadCall → Bool) :
    @DownloadEnvironment Sha256.reference Lz4.reference :=
  letI := Sha256.reference
  letI := Lz4.reference
  { directory := [46]
    lookup := .ok byteLookup
    cpuCount := 1
    configured := none
    run := fun _ same => (Except.ok.inj same) ▸ byteRun
    fails := fails }

/-- A download to a free name without failures before the link reaches the link. -/
theorem reachesLink_byte {fails : DownloadCall → Bool}
    (healthy : ∀ call, call ≠ .syncLinked → fails call = false) :
    letI := Sha256.reference
    letI := Lz4.reference
    (byteEnvironment fails).ReachesLink (some [98]) (fun _ => none) byteLookup [98] := by
  let sha := Sha256.reference
  let lz4 := Lz4.reference
  have content : byteRun.pool.work.world = [65] := by decide +kernel
  have isRun : (byteEnvironment fails).run byteLookup rfl = byteRun := rfl
  refine ⟨rfl, rfl, by simp, rfl, healthy _ (by simp), healthy _ (by simp), rfl, by decide,
    healthy _ (by simp), healthy _ (by simp), rfl, healthy _ (by simp), healthy _ (by simp), ?_, ?_,
    healthy _ (by simp)⟩
  · rw [isRun, content]
    rfl
  · rw [isRun, content]
    rfl

/-- Without failures the download is all or nothing, and when the directory cannot be synced after
the link it leaves the file. -/
theorem download_all_or_nothing_byte :
    letI := Sha256.reference
    letI := Lz4.reference
    AllOrNothing (byteEnvironment fun _ => false) none (fun _ => none) ∧
      ∃ content, (byteEnvironment fun call => call = .syncLinked).fileClientDownload (some [98])
          (fun _ => none) = (Files.set (fun _ => none) [98] (some content), false) ∧
        contentSha256 content = Sha256.reference.digest [65] := by
  let sha := Sha256.reference
  let lz4 := Lz4.reference
  constructor
  · refine (download_all_or_nothing (byteEnvironment fun _ => false) none (fun _ => none)
      rfl).1.mpr ?_
    rintro ⟨_, _, -, wrong | wrong | wrong⟩ <;> cases wrong
  · obtain ⟨content, outcome, -, -, digest⟩ := (download_all_or_nothing
      (byteEnvironment fun call => call = .syncLinked) (some [98]) (fun _ => none) rfl).2 byteLookup
        [98] (reachesLink_byte fun _ other => decide_eq_false other) (Or.inl rfl)
    exact ⟨content, outcome, digest⟩

/-- When the directory cannot be synced after the link, the download returns an error and leaves the
whole file at the destination. -/
theorem failed_download_leaves_file :
    letI := Sha256.reference
    letI := Lz4.reference
    let environment := byteEnvironment fun call => call = .syncLinked
    environment.fails .cleanup = false ∧
      (environment.fileClientDownload (some [98]) fun _ => none).2 = false ∧
      (environment.fileClientDownload (some [98]) fun _ => none).1 [98] = some [65] ∧
      ¬AllOrNothing environment (some [98]) fun _ => none := by
  let sha := Sha256.reference
  let lz4 := Lz4.reference
  intro environment
  have failed : (environment.fileClientDownload (some [98]) fun _ => none).2 = false := by
    decide +kernel
  have left : (environment.fileClientDownload (some [98]) fun _ => none).1 [98] = some [65] := by
    decide +kernel
  refine ⟨rfl, failed, left, fun all => ?_⟩
  obtain ⟨gone, -⟩ := all.nothing failed byteLookup [98] rfl rfl rfl
  rw [left] at gone
  cases gone

end SuperPeerNet
