import Allowly.Base.Interleave
import Allowly.Core.Execution

/-!
# The Operation Folder

What the operations do to the folder of one operation ID in one storage directory.

`mkdir` and `replace` take effect at once or not at all. The lock belongs to one program
at a time, and is given back when its holder closes it or dies. What a file holds when
it is read is what it held before. Everything else an operation answers is up to the
surroundings: the clock, the runtime, the provider, the machine, and whether an
operation fails. The native process writes its files whenever it likes.

A program that has ended leaves its result behind, which is where `joinSend` finds the
result of the thread.

## Main definitions

* `Folder`: The folder, its lock, and the results of programs that ended.
* `perform`: What an operation does.
* `NativeWrite`: What the native process does.
* `system`: The calls on one operation.
-/

namespace Allowly

open Py Interleave

/-- What stands at the path of the folder. -/
inductive Node where
  | absent
  | file
  | dir
  deriving DecidableEq

/-- The folder of an operation. -/
structure Folder where
  node : Node
  files : File → Option Bytes
  lock : Option Nat
  results : Nat → Option (Except Exc Value)

/-- A folder that has not been made. -/
def Folder.fresh : Folder :=
  { node := .absent, files := fun _ => none, lock := none, results := fun _ => none }

def Folder.write (s : Folder) (file : File) (data : Option Bytes) : Folder :=
  { s with files := Function.update s.files file data }

def Folder.unlock (s : Folder) (self : Nat) : Folder :=
  { s with lock := if s.lock = some self then none else s.lock }

/-- Is this the result of a thread that ended? -/
def isSent (r : Option (Except Exc Value)) (v : Json) : Bool :=
  match r with
  | some (.ok (.sent w)) => w = v
  | _ => false

/-- What an operation does, if the answer is possible. -/
def perform (self fresh : Nat) (o : Op) (r : Except Fault o.Answer) (s : Folder) : Option Folder :=
  match o, r with
  | .folderExists, .ok b => if b = decide (s.node ≠ .absent) then some s else none
  | .folderIsDir, .ok b => if b = decide (s.node = .dir) then some s else none
  | .mkdir, .ok _ => if s.node = .absent then some { s with node := .dir } else none
  | .mkdir, .error ⟨.fileExists, _⟩ => if s.node = .absent then none else some s
  | .flock, .ok _ => if s.lock = none then some { s with lock := some self } else none
  | .closeLock, _ => some (s.unlock self)
  | .replace file data, .ok _ => some (s.write file (some data))
  | .read file maximum, .ok b =>
    match s.files file with
    | some content => if b = content.take (maximum + 1) then some s else none
    | none => none
  | .fileExists file, .ok b => if b = (s.files file).isSome then some s else none
  | .startSend _, .ok thread => if thread = fresh then some s else none
  | .joinSend thread, .ok v => if isSent (s.results thread) v then some s else none
  | _, _ => some s

/-- The thread an operation starts. -/
def spawns (o : Op) (r : Except Fault o.Answer) : Option Command :=
  match o, r with
  | .startSend s, .ok _ => some (.send s)
  | _, _ => none

/-- A file the native process writes. -/
structure NativeWrite where
  file : File
  content : Option Bytes

/-- The files of the native process. -/
def nativeFiles : List File := [.ready, .witnessResponse, .presentation, .attestation]

/-- A call on this operation, or a report on its folder. -/
def admits (operationId : Str) : Command → Bool
  | .execute _ a => a.operationId = operationId
  | .continuation _ a => a.operationId = operationId
  | .flush _ _ => true
  | .send _ => false

/-- Any number of calls on one operation. -/
def system (L : Libs) (operationId : Str) :
    System Op Op.Answer Fault Exc Value Command Folder NativeWrite where
  code := code L
  admits := admits operationId
  perform := perform
  spawns := spawns
  finish self r s := { s with results := Function.update s.results self (some r) }
  crash self s := s.unlock self
  disturb d s := if d.file ∈ nativeFiles then some (s.write d.file d.content) else none

/-- What happened to the operation. -/
abbrev Happening := Event Op Op.Answer Fault Exc Value Command NativeWrite

/-- A point of a run of calls on the operation. -/
abbrev Point := World Op Op.Answer Fault Exc Value Command Folder NativeWrite

end Allowly
