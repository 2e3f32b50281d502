import LinuxDriver.Sys2Setters

/-!
# Read-side sections of the descriptor commands

`showprocessfd_in` closes the section that it opens for each process. `setsocketsize_in`
returns from inside its section when it has found the socket.
-/

open CString

namespace Sys2

/-- The names that `showprocessfd_in` has for a mode. -/
inductive FileType
  | socket
  | regular
  | directory
  | character
  | block
  | fifo
  | symlink
  | unknown
  deriving DecidableEq

def fileType (mode : UInt16) : FileType :=
  if sIsSock mode then .socket
  else if mode &&& 0o170000 = 0o100000 then .regular
  else if mode &&& 0o170000 = 0o040000 then .directory
  else if mode &&& 0o170000 = 0o020000 then .character
  else if mode &&& 0o170000 = 0o060000 then .block
  else if mode &&& 0o170000 = 0o010000 then .fifo
  else if mode &&& 0o170000 = 0o120000 then .symlink
  else .unknown

/-- A printed line, without its layout. -/
inductive Line
  | descriptor (pid : ℤ) (fd : ℕ) (type : FileType) (rcv snd : ℤ)
  | process (pid : ℤ) (count : ℕ)
  | total (count : ℕ)
  deriving DecidableEq

structure Listing where
  lines : List Line
  processFdCount : ℕ
  totalFdCount : ℕ

namespace Listing

def print (s : Listing) (line : Line) : Listing := { s with lines := s.lines ++ [line] }

def count (s : Listing) : Listing :=
  { s with processFdCount := s.processFdCount + 1, totalFdCount := s.totalFdCount + 1 }

end Listing

/-- What the loop body does with an open file: a socket without a `sock` is counted only. -/
def showFile (sys : System) (pid : ℤ) (fd : ℕ) (iSize : ℤ) (file : File) (s : Listing) : Listing :=
  let s := s.count
  let type := fileType file.iMode
  if type = .socket then
    match file.privateData.bind Socket.sk with
    | some sk => s.print (.descriptor pid fd type (sys.sock sk).rcvbuf (sys.sock sk).sndbuf)
    | none => s
  else s.print (.descriptor pid fd type iSize iSize)

/-- The loop over the file descriptors from `fd` on; `iSize` has the sizes of their inodes. -/
def showFdLoop (sys : System) (pid : ℤ) (iSize : ℕ → ℤ) :
    ℕ → List (Option File) → Listing → Listing
  | _, [], s => s
  | fd, none :: fdt, s => showFdLoop sys pid iSize (fd + 1) fdt s
  | fd, some file :: fdt, s =>
      showFdLoop sys pid iSize (fd + 1) fdt (showFile sys pid fd (iSize fd) file s)

def showLoop (iSize : ℕ → ℕ → ℤ) (k : Kernel) : List ℕ → Listing → Kernel × Listing
  | [], s => (k, s)
  | t :: ts, s =>
      match (k.task t).files with
      | none => showLoop iSize k ts s
      | some fdt =>
          let pid := (k.task t).pid
          let k := k.rcuReadLock
          let s := showFdLoop k.toSystem pid (iSize t) 0 fdt { s with processFdCount := 0 }
          let k := k.rcuReadUnlock
          showLoop iSize k ts (s.print (.process pid s.processFdCount))

/-- The parameter is not looked at. -/
def showprocessfdIn (iSize : ℕ → ℕ → ℤ) (_param : List UInt8) (k : Kernel) :
    Kernel × List Line × ℤ :=
  let (k, s) := showLoop iSize k k.processes ⟨[], 0, 0⟩
  (k, (s.print (.total s.totalFdCount)).lines, 0)

@[simp] theorem rcuReadUnlock_rcuReadLock (k : Kernel) : k.rcuReadLock.rcuReadUnlock = k := rfl

theorem showLoop_fst (iSize : ℕ → ℕ → ℤ) (k : Kernel) (ts : List ℕ) (s : Listing) :
    (showLoop iSize k ts s).1 = k := by
  induction ts generalizing s with
  | nil => rfl
  | cons t ts ih =>
      unfold showLoop
      cases (k.task t).files with
      | none => exact ih s
      | some fdt =>
          simp only [rcuReadUnlock_rcuReadLock]
          exact ih _

theorem showprocessfdIn_fst (iSize : ℕ → ℕ → ℤ) (param : List UInt8) (k : Kernel) :
    (showprocessfdIn iSize param k).1 = k := showLoop_fst iSize k k.processes _

theorem setsocketsizeIn_rcuDepth_iff (param : List UInt8) (k : Kernel) :
    (setsocketsizeIn param k).1.rcuDepth = k.rcuDepth ↔
      ∀ pid fd rcv snd, scanDDDD param = some (pid, fd, rcv, snd) →
        k.socketAt pid fd = none := by
  unfold setsocketsizeIn
  cases hscan : scanDDDD param with
  | none => simp
  | some scanned =>
      obtain ⟨pid, fd, rcv, snd⟩ := scanned
      dsimp only
      rw [socketLoop_eq]
      cases hsocket : k.processes.findSome? fun t => System.taskSkAt pid fd (k.task t) with
      | none =>
          apply iff_of_true
          · rfl
          · rintro _ _ _ _ ⟨⟩
            exact hsocket
      | some sk =>
          apply iff_of_false
          · exact Nat.succ_ne_self k.rcuDepth
          · intro hall
            have hnone := hall pid fd rcv snd rfl
            rw [System.socketAt, hsocket] at hnone
            cases hnone

theorem rcu_sections_balanced_iff (iSize : ℕ → ℕ → ℤ) (param : List UInt8) (k : Kernel) :
    (showprocessfdIn iSize param k).1.rcuDepth = k.rcuDepth ∧
      ((setsocketsizeIn param k).1.rcuDepth = k.rcuDepth ↔
        ∀ pid fd rcv snd, scanDDDD param = some (pid, fd, rcv, snd) →
          k.socketAt pid fd = none) :=
  ⟨congrArg Kernel.rcuDepth (showprocessfdIn_fst iSize param k),
    setsocketsizeIn_rcuDepth_iff param k⟩

def oneSocket : Kernel where
  task _ := ⟨7, 0, 0, some [some ⟨0o140777, some ⟨some 0⟩⟩]⟩
  processes := [0]
  device _ := ⟨[], 0, 0⟩
  deviceList := []
  pid _ := ⟨0, none⟩
  pidHash _ := none
  sock _ := ⟨0, 0, 0⟩
  rcuDepth := 0

theorem setsocketsize_leaks_section :
    (setsocketsizeIn (bytes "7 0 4096 4096") oneSocket).2 = 0 ∧
      (setsocketsizeIn (bytes "7 0 4096 4096") oneSocket).1.rcuDepth ≠ oneSocket.rcuDepth := by
  decide +kernel

end Sys2
