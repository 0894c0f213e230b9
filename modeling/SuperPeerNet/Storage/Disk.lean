/-
This file models the part of the file system that `storage.c` works on.

Under its root the storage keeps two directories, `pending` and `objects`, with one
subdirectory for each document. A subdirectory holds a manifest, the chunk files, and
the temporary files that are renamed into their places. Every change is one of four
durable steps, each of them atomic: making a directory, a synced write of a whole
file, a rename inside a subdirectory, and the rename that publishes a subdirectory. A
crash happens between two steps, so an operation is given by the list of its steps and
what survives a crash is the outcome of a prefix of the list.
-/

import SuperPeerNet.Protocol

namespace SuperPeerNet

/-! ### The tree -/

/-- The two directories below the root: the flag `final` of the source. -/
inductive Area where
  | pending | objects
  deriving DecidableEq

/-- The files of the directory of a document. The names of temporary files carry the id of the
process that writes them. -/
inductive FileName where
  | manifest
  | manifestTemporary (pid : Nat)
  | chunk (index : UInt64)
  | chunkTemporary (index : UInt64) (pid : Nat)
  deriving DecidableEq

/-- The contents of the directory of a document. -/
abbrev Directory := FileName → Option (List UInt8)

/-- The directories of the documents. The name of a directory is the id of its document in
hexadecimal. -/
abbrev Disk := Area → ObjectID → Option Directory

namespace Directory

/-- A new directory. -/
def empty : Directory := fun _ => none

/-- Write a file, or remove it. -/
def set (directory : Directory) (name : FileName) (bytes : Option (List UInt8)) : Directory :=
  fun other => if other = name then bytes else directory other

theorem set_apply (directory : Directory) (name other : FileName) (bytes : Option (List UInt8)) :
    directory.set name bytes other = if other = name then bytes else directory other := rfl

theorem set_set (directory : Directory) (name : FileName) (first second : Option (List UInt8)) :
    (directory.set name first).set name second = directory.set name second := by
  funext other
  rw [set_apply, set_apply, set_apply]
  split <;> rfl

end Directory

namespace Disk

/-- A tree without documents. -/
def empty : Disk := fun _ _ => none

/-- Replace the directory of a document. -/
def set (disk : Disk) (area : Area) (id : ObjectID) (directory : Option Directory) : Disk :=
  fun otherArea other => if otherArea = area ∧ other = id then directory else disk otherArea other

/-- The contents of a file. -/
def file (disk : Disk) (area : Area) (id : ObjectID) (name : FileName) : Option (List UInt8) :=
  (disk area id).bind fun directory => directory name

/-- The chunk files of a document. -/
def chunks (disk : Disk) (area : Area) (id : ObjectID) (index : UInt64) : Option (List UInt8) :=
  disk.file area id (.chunk index)

@[simp] theorem set_same (disk : Disk) (area : Area) (id : ObjectID)
    (directory : Option Directory) : disk.set area id directory area id = directory :=
  if_pos ⟨rfl, rfl⟩

theorem set_other_id (disk : Disk) (area otherArea : Area) {id other : ObjectID}
    (different : other ≠ id) (directory : Option Directory) :
    disk.set area id directory otherArea other = disk otherArea other :=
  if_neg fun same => different same.2

theorem set_other_area (disk : Disk) {area otherArea : Area} (id : ObjectID)
    (different : otherArea ≠ area) (directory : Option Directory) :
    disk.set area id directory otherArea id = disk otherArea id :=
  if_neg fun same => different same.1

theorem set_set (disk : Disk) (area : Area) (id : ObjectID) (first second : Option Directory) :
    (disk.set area id first).set area id second = disk.set area id second := by
  funext otherArea other
  unfold set
  split <;> rfl

theorem set_self {disk : Disk} {area : Area} {id : ObjectID} {directory : Option Directory}
    (place : disk area id = directory) : disk.set area id directory = disk := by
  funext otherArea other
  unfold set
  split
  · rename_i same
    rw [same.1, same.2, place]
  · rfl

theorem chunks_of_directory {disk : Disk} {area : Area} {id : ObjectID} {directory : Directory}
    (place : disk area id = some directory) :
    disk.chunks area id = fun index => directory (.chunk index) := by
  funext index
  rw [chunks, file, place]
  rfl

end Disk

/-! ### Durable steps -/

/-- A durable step on the tree. -/
inductive DiskStep where
  /-- `mkdir`, where an existing directory is no error. -/
  | makeDirectory (area : Area) (id : ObjectID)
  /-- Create or truncate a file, write it and `fsync` it. -/
  | write (area : Area) (id : ObjectID) (name : FileName) (bytes : List UInt8)
  /-- `rename` inside the directory of a document, followed by `sync_parent`. -/
  | rename (area : Area) (id : ObjectID) (source target : FileName)
  /-- `rename(pending, final)`. A directory is not renamed onto one that has files. -/
  | publish (id : ObjectID)
  deriving DecidableEq

/-- Take a step. -/
def DiskStep.apply (disk : Disk) : DiskStep → Except Errno Disk
  | .makeDirectory area id =>
    match disk area id with
    | some _ => .ok disk
    | none => .ok (disk.set area id (some Directory.empty))
  | .write area id name bytes =>
    match disk area id with
    | none => .error .enoent
    | some directory => .ok (disk.set area id (some (directory.set name (some bytes))))
  | .rename area id source target =>
    match disk area id with
    | none => .error .enoent
    | some directory =>
      match directory source with
      | none => .error .enoent
      | some bytes =>
        .ok (disk.set area id (some ((directory.set source none).set target (some bytes))))
  | .publish id =>
    match disk .pending id with
    | none => .error .enoent
    | some directory =>
      match disk .objects id with
      | some _ => .error .enotempty
      | none => .ok ((disk.set .pending id none).set .objects id (some directory))

/-- Take steps until one of them fails. -/
def execute : List DiskStep → Disk → Disk × Except Errno Unit
  | [], disk => (disk, .ok ())
  | step :: rest, disk =>
    match step.apply disk with
    | .error code => (disk, .error code)
    | .ok next => execute rest next

theorem execute_cons {step : DiskStep} {disk next : Disk} (taken : step.apply disk = .ok next)
    (rest : List DiskStep) : execute (step :: rest) disk = execute rest next := by
  rw [execute, taken]

namespace DiskStep

variable {disk : Disk} {area : Area} {id : ObjectID} {directory : Directory}

theorem apply_makeDirectory (disk : Disk) (area : Area) (id : ObjectID) :
    apply disk (.makeDirectory area id) =
      .ok (disk.set area id (some ((disk area id).getD .empty))) := by
  cases place : disk area id with
  | none =>
    simp only [apply, place]
    rfl
  | some directory =>
    simp only [apply, place, Option.getD_some]
    rw [Disk.set_self place]

theorem apply_write (place : disk area id = some directory) (name : FileName)
    (bytes : List UInt8) : apply disk (.write area id name bytes) =
      .ok (disk.set area id (some (directory.set name (some bytes)))) := by
  simp only [apply, place]

theorem apply_rename (place : disk area id = some directory) {source : FileName}
    {bytes : List UInt8} (there : directory source = some bytes) (target : FileName) :
    apply disk (.rename area id source target) =
      .ok (disk.set area id (some ((directory.set source none).set target (some bytes)))) := by
  simp only [apply, place, there]

theorem apply_publish (place : disk .pending id = some directory)
    (free : disk .objects id = none) : apply disk (.publish id) =
      .ok ((disk.set .pending id none).set .objects id (some directory)) := by
  simp only [apply, place, free]

end DiskStep

theorem execute_append {first : List DiskStep} {disk next : Disk}
    (taken : execute first disk = (next, .ok ())) (second : List DiskStep) :
    execute (first ++ second) disk = execute second next := by
  induction first generalizing disk with
  | nil =>
    cases taken
    rfl
  | cons step rest inductionHypothesis =>
    rw [execute] at taken
    rw [List.cons_append, execute]
    cases applied : step.apply disk with
    | error code =>
      rw [applied] at taken
      cases taken
    | ok after =>
      rw [applied] at taken
      exact inductionHypothesis taken

/-- The document that a step is about. -/
def DiskStep.id : DiskStep → ObjectID
  | .makeDirectory _ id => id
  | .write _ id _ _ => id
  | .rename _ id _ _ => id
  | .publish id => id

/-- A step leaves the directories of other documents as they are. -/
theorem DiskStep.apply_other {disk next : Disk} {step : DiskStep}
    (taken : step.apply disk = .ok next)
    {other : ObjectID} (different : other ≠ step.id) (area : Area) :
    next area other = disk area other := by
  cases step with
  | makeDirectory =>
    rw [apply_makeDirectory] at taken
    cases taken
    exact Disk.set_other_id _ _ _ different _
  | write stepArea id =>
    cases place : disk stepArea id with
    | none =>
      simp only [apply, place] at taken
      cases taken
    | some directory =>
      rw [apply_write place] at taken
      cases taken
      exact Disk.set_other_id _ _ _ different _
  | rename stepArea id source =>
    cases place : disk stepArea id with
    | none =>
      simp only [apply, place] at taken
      cases taken
    | some directory =>
      cases there : directory source with
      | none =>
        simp only [apply, place, there] at taken
        cases taken
      | some bytes =>
        rw [apply_rename place there] at taken
        cases taken
        exact Disk.set_other_id _ _ _ different _
  | publish id =>
    cases place : disk .pending id with
    | none =>
      simp only [apply, place] at taken
      cases taken
    | some directory =>
      cases free : disk .objects id with
      | some occupied =>
        simp only [apply, place, free] at taken
        cases taken
      | none =>
        rw [apply_publish place free] at taken
        cases taken
        change other ≠ id at different
        rw [Disk.set_other_id _ _ _ different, Disk.set_other_id _ _ _ different]

/-- Steps about other documents leave the directories of a document as they are. -/
theorem execute_other {steps : List DiskStep} {other : ObjectID}
    (untouched : ∀ step ∈ steps, other ≠ step.id) (area : Area) (disk : Disk) :
    (execute steps disk).1 area other = disk area other := by
  induction steps generalizing disk with
  | nil => rfl
  | cons step rest inductionHypothesis =>
    rw [execute]
    cases applied : step.apply disk with
    | error code => rfl
    | ok next =>
      simp only
      rw [inductionHypothesis fun later member => untouched later (List.mem_cons_of_mem _ member)]
      exact DiskStep.apply_other applied (untouched step List.mem_cons_self) area

/-- Write a temporary file and rename it into its place. -/
theorem execute_replace {disk : Disk} {area : Area} {id : ObjectID} {directory : Directory}
    (place : disk area id = some directory) (temporary target : FileName) (bytes : List UInt8)
    (rest : List DiskStep) :
    execute (.write area id temporary bytes :: .rename area id temporary target :: rest) disk =
      execute rest (disk.set area id
        (some ((directory.set temporary none).set target (some bytes)))) := by
  rw [execute_cons (DiskStep.apply_write place temporary bytes),
    execute_cons (DiskStep.apply_rename (Disk.set_same ..) (if_pos rfl) target), Disk.set_set,
    Directory.set_set]

end SuperPeerNet
