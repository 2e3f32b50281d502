import LinuxDriver.Sys2System

/-!
# The sys2 setters are all-or-nothing

What a setter was asked to do is a `Request`; its values carry their range. Each setter
performs the request its parameter makes, or leaves the system alone when there is none, and
returns every reference it took.
-/

open CString

namespace Sys2

inductive Setter where
  | setnice
  | setniceuser
  | setthreadpriority
  | setmtu
  | setsocketsize
  deriving DecidableEq, Repr

abbrev Nice := {nice : ℤ // -20 ≤ nice ∧ nice ≤ 19}

abbrev Mtu := {mtu : ℤ // 68 ≤ mtu ∧ mtu ≤ 65535}

inductive Request where
  | niceAll (nice : Nice)
  | niceUser (uid : UInt32) (nice : Nice)
  | niceThread (thread : ℕ) (nice : Nice)
  | mtu (dev : ℕ) (mtu : Mtu)
  | bufSizes (sk : ℕ) (rcv snd : ℤ)

namespace System

variable (sys : System)

def reniced (target : ℕ → Task → Prop) [∀ t task, Decidable (target t task)] (nice : ℤ) :
    System :=
  { sys with task := fun t =>
      if target t (sys.task t) then { sys.task t with nice } else sys.task t }

/-- The effect of a request: one field of its targets changes. -/
def apply : Request → System
  | .niceAll nice => sys.reniced (fun t task => t ∈ sys.processes ∧ task.pid ≠ 0) nice
  | .niceUser uid nice =>
      sys.reniced (fun t task => t ∈ sys.processes ∧ task.pid ≠ 0 ∧ task.uid = uid) nice
  | .niceThread thread nice =>
      { sys with task := Function.update sys.task thread { sys.task thread with nice := nice } }
  | .mtu dev mtu =>
      { sys with device := Function.update sys.device dev { sys.device dev with mtu := mtu } }
  | .bufSizes sk rcv snd =>
      { sys with sock := Function.update sys.sock sk ⟨(sys.sock sk).userlocks ||| 3, rcv, snd⟩ }

def skAt (fdt : List (Option File)) (fd : ℤ) : Option ℕ :=
  if 0 ≤ fd then (fdt[fd.toNat]?).join.bind File.sk else none

def taskSkAt (pid fd : ℤ) (task : Task) : Option ℕ :=
  if task.pid = pid then task.files.bind (skAt · fd) else none

/-- The socket at `(pid, fd)`, in the first listed process that has one. -/
def socketAt (pid fd : ℤ) : Option ℕ :=
  sys.processes.findSome? fun t => taskSkAt pid fd (sys.task t)

def threadAt (tid : ℤ) : Option ℕ := (sys.pidHash tid).bind fun p => (sys.pid p).task

/-- The request a parameter makes: its numbers parse, are in range and name a target. -/
def requested (makeKuid : UInt32 → UInt32) (param : List UInt8) : Setter → Option Request
  | .setnice => do
      let nice ← scanD param
      if h : -20 ≤ nice ∧ nice ≤ 19 then some (.niceAll ⟨nice, h⟩) else none
  | .setniceuser => do
      let (uid, nice) ← scanDD param
      if kuidOf makeKuid uid = invalidUid then none
      else if h : -20 ≤ nice ∧ nice ≤ 19 then
        some (.niceUser (kuidOf makeKuid uid) ⟨nice, h⟩)
      else none
  | .setthreadpriority => do
      let (tid, nice) ← scanDD param
      let thread ← sys.threadAt tid
      if h : -20 ≤ nice ∧ nice ≤ 19 then some (.niceThread thread ⟨nice, h⟩) else none
  | .setmtu => do
      let (name, mtu) ← scanSD param
      let dev ← sys.lookupDevice name
      if h : 68 ≤ mtu ∧ mtu ≤ 65535 then some (.mtu dev ⟨mtu, h⟩) else none
  | .setsocketsize => do
      let (pid, fd, rcv, snd) ← scanDDDD param
      let sk ← sys.socketAt pid fd
      some (.bufSizes sk rcv snd)

def fulfil (request : Option Request) : System := request.elim sys sys.apply

/-- The code for a parameter that names a target or none, with a value in range or not. -/
def codeOf (target : Option ℕ) (missing : ℤ) (inRange : Bool) : ℤ :=
  match target with
  | none => -missing
  | some _ => if inRange then 0 else -einval

/-- What a setter is to return: 0, or the error of the first check that its parameter fails. The
two that go over all tasks return nothing. -/
def reported (param : List UInt8) : Setter → Option ℤ
  | .setnice | .setniceuser => none
  | .setthreadpriority => some <| (scanDD param).elim (-einval) fun (tid, nice) =>
      codeOf (sys.threadAt tid) esrch (-20 ≤ nice ∧ nice ≤ 19)
  | .setmtu => some <| (scanSD param).elim (-einval) fun (name, mtu) =>
      codeOf (sys.lookupDevice name) enodev (68 ≤ mtu ∧ mtu ≤ 65535)
  | .setsocketsize => some <| (scanDDDD param).elim (-einval) fun (pid, fd, _, _) =>
      codeOf (sys.socketAt pid fd) enodev true

@[simp] theorem setDevice_setDevice (d : ℕ) (dev dev' : NetDevice) :
    (sys.setDevice d dev).setDevice d dev' = sys.setDevice d dev' := by
  simp [setDevice]

@[simp] theorem setDevice_device (d : ℕ) (dev : NetDevice) :
    (sys.setDevice d dev).device d = dev := by
  simp [setDevice]

@[simp] theorem setDevice_self (d : ℕ) : sys.setDevice d (sys.device d) = sys := by
  simp [setDevice]

@[simp] theorem devPut_devHold (d : ℕ) : (sys.devHold d).devPut d = sys := by
  rw [devPut, devHold, setDevice_setDevice, setDevice_device]
  exact sys.setDevice_self d

@[simp] theorem putPid_getPid (p : ℕ) : (sys.getPid p).putPid p = sys := by
  simp [getPid, putPid, setPid]

theorem devPut_writeMtu_devHold (d : ℕ) (mtu : Mtu) :
    ((sys.devHold d).writeMtu d mtu).devPut d = sys.apply (.mtu d mtu) := by
  simp only [devHold, writeMtu, devPut, setDevice_setDevice, setDevice_device]
  rfl

theorem setUserNice_of_mem (t : ℕ) {nice : ℤ} (h : -20 ≤ nice ∧ nice ≤ 19) :
    sys.setUserNice t nice = sys.setTask t { sys.task t with nice } := by
  by_cases hsame : (sys.task t).nice = nice
  · rw [setUserNice, if_pos (Or.inl hsame), setTask, ← hsame, Function.update_eq_self]
  · have hset : ¬((sys.task t).nice = nice ∨ nice < minNice ∨ maxNice < nice) := by
      simp only [minNice, maxNice]
      omega
    rw [setUserNice, if_neg hset]

@[simp] theorem skAt_of_neg (fdt : List (Option File)) {fd : ℤ} (h : fd < 0) :
    skAt fdt fd = none := if_neg (by omega)

@[simp] theorem skAt_zero (file : Option File) (fdt : List (Option File)) :
    skAt (file :: fdt) 0 = file.bind File.sk := rfl

theorem skAt_cons (file : Option File) (fdt : List (Option File)) {fd : ℤ} (h : fd ≠ 0) :
    skAt (file :: fdt) fd = skAt fdt (fd - 1) := by
  rcases Int.lt_or_gt_of_ne h with hneg | hpos
  · rw [skAt_of_neg _ hneg, skAt_of_neg _ (by omega)]
  · obtain ⟨n, rfl⟩ : ∃ n : ℕ, fd = n + 1 := ⟨(fd - 1).toNat, by omega⟩
    rw [Int.add_sub_cancel, skAt, skAt, if_pos (by omega), if_pos (by omega)]
    rfl

end System

/-- The loop sets exactly the selected listed tasks: setting one selects no other. -/
theorem foldl_setUserNice {selected : Task → Bool} {nice : ℤ} (h : -20 ≤ nice ∧ nice ≤ 19)
    (hsel : ∀ (task : Task) (n : ℤ), selected { task with nice := n } = selected task)
    (l : List ℕ) (sys : System) :
    l.foldl (fun sys t => if selected (sys.task t) then sys.setUserNice t nice else sys) sys =
      sys.reniced (fun t task => t ∈ l ∧ selected task = true) nice := by
  induction l generalizing sys with
  | nil => simp [System.reniced]
  | cons t l ih =>
      rw [List.foldl_cons, ih]
      by_cases hthis : selected (sys.task t) = true
      · rw [if_pos hthis, sys.setUserNice_of_mem t h, System.reniced, System.reniced]
        congr 1
        funext t'
        by_cases ht : t' = t
        · subst t'
          simp [System.setTask, hthis, hsel]
        · simp [System.setTask, ht]
      · rw [if_neg hthis, System.reniced, System.reniced]
        congr 1
        funext t'
        by_cases ht : t' = t
        · subst t'
          simp [hthis]
        · simp [ht]

theorem niceLoop_eq {selected : Task → Bool} {nice : ℤ} (h : -20 ≤ nice ∧ nice ≤ 19)
    (hsel : ∀ (task : Task) (n : ℤ), selected { task with nice := n } = selected task)
    (sys : System) : niceLoop selected nice sys =
      sys.reniced (fun t task => t ∈ sys.processes ∧ selected task = true) nice :=
  foldl_setUserNice h hsel sys.processes sys

theorem fdLoop_eq (fd rcv snd : ℤ) (sys : System) (lfd : ℕ) (fdt : List (Option File)) :
    fdLoop fd rcv snd sys lfd fdt =
      (System.skAt fdt (fd - lfd)).map fun sk => sys.writeBufSizes sk rcv snd := by
  induction fdt generalizing lfd with
  | nil => simp [fdLoop, System.skAt]
  | cons file fdt ih =>
      have hnext : fd - ((lfd + 1 : ℕ) : ℤ) = fd - lfd - 1 := by omega
      by_cases hfd : (lfd : ℤ) = fd
      · -- Past the requested descriptor the loop finds nothing more.
        have hpast := ih (lfd + 1)
        rw [System.skAt_of_neg _ (by omega)] at hpast
        rw [show fd - lfd = 0 by omega, System.skAt_zero]
        cases file with
        | none => exact hpast
        | some file =>
            rw [fdLoop, if_neg (not_not.2 hfd), Option.bind_some]
            cases file.sk with
            | none => exact hpast
            | some sk => rfl
      · rw [System.skAt_cons _ _ (by omega), ← hnext, ← ih]
        cases file with
        | none => rfl
        | some file => rw [fdLoop, if_pos hfd]

theorem socketLoop_eq (pid fd rcv snd : ℤ) (k : Kernel) (ts : List ℕ) :
    socketLoop pid fd rcv snd k ts =
      ((ts.findSome? fun t => System.taskSkAt pid fd (k.task t)).elim (k, -enodev)
        fun sk => ({ k.rcuReadLock with toSystem := k.toSystem.writeBufSizes sk rcv snd }, 0)) := by
  induction ts with
  | nil => rfl
  | cons t ts ih =>
      rw [socketLoop, List.findSome?_cons, System.taskSkAt]
      by_cases hpid : (k.task t).pid = pid
      · rw [if_neg (not_not.2 hpid), if_pos hpid]
        cases (k.task t).files with
        | none => exact ih
        | some fdt =>
            have hloop := fdLoop_eq fd rcv snd k.toSystem 0 fdt
            rw [show fd - ((0 : ℕ) : ℤ) = fd by omega] at hloop
            rw [Option.bind_some]
            cases hsk : System.skAt fdt fd with
            | none =>
                rw [hsk, Option.map_none] at hloop
                simpa [Kernel.rcuReadLock, Kernel.rcuReadUnlock, hloop] using ih
            | some sk =>
                rw [hsk, Option.map_some] at hloop
                simp [Kernel.rcuReadLock, hloop]
      · rw [if_pos hpid, if_neg hpid]
        exact ih

theorem setAllTaskNice_eq (makeKuid : UInt32 → UInt32) (param : List UInt8) (sys : System) :
    setAllTaskNice param sys = sys.fulfil (sys.requested makeKuid param .setnice) := by
  rw [setAllTaskNice, System.requested]
  cases scanD param with
  | none => rfl
  | some nice =>
      rw [Option.bind_eq_bind, Option.bind_some]
      by_cases h : -20 ≤ nice ∧ nice ≤ 19
      · rw [dif_pos h]
        simp only [if_pos h]
        rw [niceLoop_eq h fun _ _ => rfl]
        simp [System.fulfil, System.apply]
      · rw [dif_neg h]
        exact if_neg h

theorem setUserNiceByUid_eq (makeKuid : UInt32 → UInt32) (param : List UInt8) (sys : System) :
    setUserNiceByUid makeKuid param sys =
      sys.fulfil (sys.requested makeKuid param .setniceuser) := by
  rw [setUserNiceByUid, System.requested]
  cases scanDD param with
  | none => rfl
  | some scanned =>
      obtain ⟨uid, nice⟩ := scanned
      rw [Option.bind_eq_bind, Option.bind_some]
      by_cases hinv : kuidOf makeKuid uid = invalidUid
      · simp only [if_pos hinv]
        rfl
      · simp only [if_neg hinv]
        by_cases h : -20 ≤ nice ∧ nice ≤ 19
        · rw [dif_pos h, if_neg (by omega), niceLoop_eq h fun _ _ => rfl]
          simp [System.fulfil, System.apply]
        · rw [dif_neg h]
          exact if_pos (by omega)

theorem setThreadPriorityIn_eq (makeKuid : UInt32 → UInt32) (param : List UInt8)
    (sys : System) : (setThreadPriorityIn param sys).1 =
      sys.fulfil (sys.requested makeKuid param .setthreadpriority) := by
  by_cases hempty : param = []
  · subst param
    rfl
  rw [setThreadPriorityIn, if_neg hempty, System.requested]
  cases scanDD param with
  | none => rfl
  | some scanned =>
      obtain ⟨tid, nice⟩ := scanned
      simp only [Option.bind_eq_bind, Option.bind_some, System.threadAt, System.findGetPid]
      cases sys.pidHash tid with
      | none => rfl
      | some p =>
          have htask : ((sys.getPid p).pid p).task = (sys.pid p).task := by
            simp [System.getPid, System.setPid]
          simp only [Option.map_some, htask, System.putPid_getPid, Option.bind_some]
          cases (sys.pid p).task with
          | none => rfl
          | some thread =>
              have hrange : (nice < minNice ∨ nice > maxNice) ↔ ¬(-20 ≤ nice ∧ nice ≤ 19) := by
                simp only [minNice, maxNice]
                omega
              simp only [Option.bind_some]
              by_cases h : -20 ≤ nice ∧ nice ≤ 19
              · rw [dif_pos h, if_neg (by rwa [hrange, not_not]),
                  sys.setUserNice_of_mem thread h]
                rfl
              · rw [dif_neg h, if_pos (hrange.2 h)]
                rfl

theorem setmtuIn_eq (makeKuid : UInt32 → UInt32) (param : List UInt8) (sys : System) :
    (setmtuIn param sys).1 = sys.fulfil (sys.requested makeKuid param .setmtu) := by
  by_cases hempty : param = []
  · subst param
    rfl
  rw [setmtuIn, if_neg hempty, System.requested]
  cases hscan : scanSD param with
  | none => rfl
  | some scanned =>
      obtain ⟨name, mtu⟩ := scanned
      simp only [Option.bind_eq_bind, Option.bind_some, System.devGetByName,
        trimTrailingWhitespace_of_isspace (isspace_of_scanSD hscan)]
      cases sys.lookupDevice name with
      | none => rfl
      | some dev =>
          simp only [Option.map_some, Option.bind_some]
          by_cases h : 68 ≤ mtu ∧ mtu ≤ 65535
          · rw [dif_pos h, if_neg (by omega)]
            exact sys.devPut_writeMtu_devHold dev ⟨mtu, h⟩
          · rw [dif_neg h, if_pos (by omega)]
            exact sys.devPut_devHold dev

theorem setsocketsizeIn_eq (makeKuid : UInt32 → UInt32) (param : List UInt8) (k : Kernel) :
    (setsocketsizeIn param k).1.toSystem =
      k.fulfil (k.requested makeKuid param .setsocketsize) := by
  rw [setsocketsizeIn, System.requested]
  cases scanDDDD param with
  | none => rfl
  | some scanned =>
      obtain ⟨pid, fd, rcv, snd⟩ := scanned
      simp only [Option.bind_eq_bind, Option.bind_some, System.socketAt]
      rw [socketLoop_eq]
      cases k.processes.findSome? fun t => System.taskSkAt pid fd (k.task t) with
      | none => rfl
      | some sk => rfl

theorem System.apply_refs (sys : System) (request : Request) :
    (∀ d, ((sys.apply request).device d).refcnt = (sys.device d).refcnt) ∧
      ∀ p, ((sys.apply request).pid p).count = (sys.pid p).count := by
  cases request with
  | mtu dev mtu =>
      refine ⟨fun d => ?_, fun _ => rfl⟩
      by_cases hd : d = dev
      · subst d
        simp [System.apply]
      · simp [System.apply, hd]
  | niceAll nice => exact ⟨fun _ => rfl, fun _ => rfl⟩
  | niceUser uid nice => exact ⟨fun _ => rfl, fun _ => rfl⟩
  | niceThread thread nice => exact ⟨fun _ => rfl, fun _ => rfl⟩
  | bufSizes sk rcv snd => exact ⟨fun _ => rfl, fun _ => rfl⟩

theorem setThreadPriorityIn_reported (param : List UInt8) (sys : System) :
    some (setThreadPriorityIn param sys).2 = sys.reported param .setthreadpriority := by
  by_cases hempty : param = []
  · subst param
    rfl
  rw [setThreadPriorityIn, if_neg hempty, System.reported]
  cases scanDD param with
  | none => rfl
  | some scanned =>
      obtain ⟨tid, nice⟩ := scanned
      simp only [Option.elim_some, System.threadAt, System.findGetPid]
      cases sys.pidHash tid with
      | none => rfl
      | some p =>
          have htask : ((sys.getPid p).pid p).task = (sys.pid p).task := by
            simp [System.getPid, System.setPid]
          simp only [Option.map_some, htask, Option.bind_some]
          cases (sys.pid p).task with
          | none => rfl
          | some thread =>
              have hrange : (nice < minNice ∨ nice > maxNice) ↔ ¬(-20 ≤ nice ∧ nice ≤ 19) := by
                simp only [minNice, maxNice]
                omega
              by_cases h : -20 ≤ nice ∧ nice ≤ 19
              · simp only [System.codeOf, h, hrange]
                rfl
              · simp only [System.codeOf, h, hrange]
                rfl

theorem setmtuIn_reported (param : List UInt8) (sys : System) :
    some (setmtuIn param sys).2 = sys.reported param .setmtu := by
  by_cases hempty : param = []
  · subst param
    rfl
  rw [setmtuIn, if_neg hempty, System.reported]
  cases hscan : scanSD param with
  | none => rfl
  | some scanned =>
      obtain ⟨name, mtu⟩ := scanned
      simp only [Option.elim_some, System.devGetByName,
        trimTrailingWhitespace_of_isspace (isspace_of_scanSD hscan)]
      cases sys.lookupDevice name with
      | none => rfl
      | some dev =>
          have hrange : (mtu < 68 ∨ mtu > 65535) ↔ ¬(68 ≤ mtu ∧ mtu ≤ 65535) := by omega
          by_cases h : 68 ≤ mtu ∧ mtu ≤ 65535
          · simp only [System.codeOf, Option.map_some, h, hrange]
            rfl
          · simp only [System.codeOf, Option.map_some, h, hrange]
            rfl

theorem setsocketsizeIn_reported (param : List UInt8) (k : Kernel) :
    some (setsocketsizeIn param k).2 = k.reported param .setsocketsize := by
  rw [setsocketsizeIn, System.reported]
  cases scanDDDD param with
  | none => rfl
  | some scanned =>
      obtain ⟨pid, fd, rcv, snd⟩ := scanned
      simp only [Option.elim_some, System.socketAt]
      rw [socketLoop_eq]
      cases k.processes.findSome? fun t => System.taskSkAt pid fd (k.task t) with
      | none => rfl
      | some sk => rfl

theorem System.codeOf_eq_zero_iff {missing : ℤ} (hmissing : missing ≠ 0) (target : Option ℕ)
    (inRange : Bool) :
    codeOf target missing inRange = 0 ↔ target.isSome = true ∧ inRange = true := by
  cases target with
  | none => simp [codeOf, hmissing]
  | some t => cases inRange <;> simp [codeOf, einval]

theorem isSome_bind_dite {target : Option ℕ} {inRange : Prop} [Decidable inRange]
    (request : ℕ → inRange → Request) :
    (target.bind fun t => if h : inRange then some (request t h) else none).isSome = true ↔
      target.isSome = true ∧ inRange := by
  cases target with
  | none => simp
  | some t =>
      rw [Option.bind_some]
      split_ifs with h
      · exact iff_of_true rfl ⟨rfl, h⟩
      · exact iff_of_false Bool.false_ne_true fun hboth => h hboth.2

/-- 0 is the code of a setter that carries a request out. -/
theorem System.reported_eq_zero_iff (makeKuid : UInt32 → UInt32) (param : List UInt8)
    (sys : System) {setter : Setter} {code : ℤ} (h : sys.reported param setter = some code) :
    code = 0 ↔ (sys.requested makeKuid param setter).isSome = true := by
  have hunread : -einval ≠ 0 := by decide
  cases setter with
  | setnice => cases h
  | setniceuser => cases h
  | setthreadpriority =>
      cases h
      rw [requested]
      cases scanDD param with
      | none => exact iff_of_false hunread Bool.false_ne_true
      | some scanned =>
          rw [Option.elim_some, codeOf_eq_zero_iff (by decide), decide_eq_true_eq]
          exact (isSome_bind_dite _).symm
  | setmtu =>
      cases h
      rw [requested]
      cases scanSD param with
      | none => exact iff_of_false hunread Bool.false_ne_true
      | some scanned =>
          rw [Option.elim_some, codeOf_eq_zero_iff (by decide), decide_eq_true_eq]
          exact (isSome_bind_dite _).symm
  | setsocketsize =>
      cases h
      rw [requested]
      cases scanDDDD param with
      | none => exact iff_of_false hunread Bool.false_ne_true
      | some scanned =>
          rw [Option.elim_some, codeOf_eq_zero_iff (by decide), and_iff_left rfl]
          change _ ↔ ((sys.socketAt scanned.1 scanned.2.1).bind fun sk => some _).isSome = true
          cases sys.socketAt scanned.1 scanned.2.1 with
          | none => exact Iff.rfl
          | some sk => exact Iff.rfl

def Setter.run (makeKuid : UInt32 → UInt32) (param : List UInt8) (k : Kernel) :
    Setter → Kernel
  | .setnice => { k with toSystem := setAllTaskNice param k.toSystem }
  | .setniceuser => { k with toSystem := setUserNiceByUid makeKuid param k.toSystem }
  | .setthreadpriority => { k with toSystem := (setThreadPriorityIn param k.toSystem).1 }
  | .setmtu => { k with toSystem := (setmtuIn param k.toSystem).1 }
  | .setsocketsize => (setsocketsizeIn param k).1

def Setter.returned (param : List UInt8) (k : Kernel) : Setter → Option ℤ
  | .setnice | .setniceuser => none
  | .setthreadpriority => some (setThreadPriorityIn param k.toSystem).2
  | .setmtu => some (setmtuIn param k.toSystem).2
  | .setsocketsize => some (setsocketsizeIn param k).2

/-- A setter either finds no valid request in its parameter and changes nothing, or carries
the request out; no reference is left over either way, and what it returns tells the two apart. -/
theorem sys2_setters_all_or_nothing (makeKuid : UInt32 → UInt32) (setter : Setter)
    (param : List UInt8) (k : Kernel) :
    ((setter.run makeKuid param k).toSystem =
      match k.requested makeKuid param setter with
      | none => k.toSystem
      | some request => k.apply request) ∧
    (∀ d, ((setter.run makeKuid param k).device d).refcnt = (k.device d).refcnt) ∧
    (∀ p, ((setter.run makeKuid param k).pid p).count = (k.pid p).count) ∧
    ∀ code, setter.returned param k = some code → k.reported param setter = some code ∧
      (code = 0 ↔ (k.requested makeKuid param setter).isSome = true) := by
  have hrun : (setter.run makeKuid param k).toSystem =
      k.fulfil (k.requested makeKuid param setter) := by
    cases setter with
    | setnice => exact setAllTaskNice_eq makeKuid param k.toSystem
    | setniceuser => exact setUserNiceByUid_eq makeKuid param k.toSystem
    | setthreadpriority => exact setThreadPriorityIn_eq makeKuid param k.toSystem
    | setmtu => exact setmtuIn_eq makeKuid param k.toSystem
    | setsocketsize => exact setsocketsizeIn_eq makeKuid param k
  have hreturned : setter.returned param k = k.reported param setter := by
    cases setter with
    | setnice => rfl
    | setniceuser => rfl
    | setthreadpriority => exact setThreadPriorityIn_reported param k.toSystem
    | setmtu => exact setmtuIn_reported param k.toSystem
    | setsocketsize => exact setsocketsizeIn_reported param k
  have hcode : ∀ code, setter.returned param k = some code →
      k.reported param setter = some code ∧
        (code = 0 ↔ (k.requested makeKuid param setter).isSome = true) := by
    intro code h
    rw [hreturned] at h
    exact ⟨h, k.reported_eq_zero_iff makeKuid param h⟩
  rw [hrun]
  cases hrequest : k.requested makeKuid param setter with
  | none =>
      rw [hrequest] at hcode
      exact ⟨rfl, fun _ => rfl, fun _ => rfl, hcode⟩
  | some request =>
      rw [hrequest] at hcode
      exact ⟨rfl, (k.apply_refs request).1, (k.apply_refs request).2, hcode⟩

example :
    let eth0 : Kernel :=
      { task := fun _ => ⟨1, 0, 0, none⟩
        processes := [0]
        device := fun _ => ⟨bytes "eth0", 1500, 1⟩
        deviceList := [0]
        pid := fun _ => ⟨0, none⟩
        pidHash := fun _ => none
        sock := fun _ => ⟨0, 0, 0⟩
        rcuDepth := 0 }
    Setter.setmtu.returned (bytes "eth0 1400") eth0 = some 0 ∧
      (Setter.setmtu.run id (bytes "eth0 1400") eth0).device 0 = ⟨bytes "eth0", 1400, 1⟩ := by
  decide

end Sys2
