import LinuxDriver.Numeral
import LinuxDriver.Sys2Interface
import Mathlib.Data.List.DropRight

/-!
# Which interface a name names

The user names an interface by the parameter without the white space around it.
`showinterface_in` and `clearinterface_in` look at the first 15 bytes and keep leading white
space; `setmtu_in` takes the first word, of any length, into an array of 16 bytes.
-/

open CString

namespace Sys2

/-- A text without the white space around it. -/
def strip (s : List UInt8) : List UInt8 := (s.dropWhile isspace).rdropWhile isspace

def named (param : List UInt8) : List UInt8 := strip (text param)

def leadingWord (t : List UInt8) : List UInt8 := t.takeWhile fun c => !isspace c

/-- What follows the leading word, from its first visible character on. -/
def afterWord (t : List UInt8) : List UInt8 := skipSpaces (t.dropWhile fun c => !isspace c)

/-- What `%s` stores in the array `interface_name` of `setmtu_in`. -/
def setmtuWord (param : List UInt8) : List UInt8 :=
  match sscanf [.s] param with
  | [.str s] => s
  | _ => []

def setmtuDevice (sys : System) (param : List UInt8) : Option ℕ :=
  (scanSD param).bind fun r => sys.lookupDevice (trimTrailingWhitespace r.1)

/-- `setmtu_in` comes to a device, or to none, and keeps to its array. -/
def SetmtuResolves (sys : System) (param : List UInt8) (dev : Option ℕ) : Prop :=
  (setmtuWord param).length < ifnamsiz ∧ setmtuDevice sys param = dev

/-- The three commands act on the device with the name that the user gave, or on none. -/
structure ActsOnNamed (m : Machine) (param : List UInt8) (sys : NetSystem) : Prop where
  shows : ∀ d, (showinterfaceIn m param sys).dev = some d → (sys.device d).name = named param
  clears : ∀ d, (clearinterfaceIn m param sys).dev = some d → (sys.device d).name = named param
  absent : (∀ d ∈ sys.deviceList, (sys.device d).name ≠ named param) →
    showinterfaceIn m param sys = ⟨sys, -enodev, none, []⟩ ∧
      clearinterfaceIn m param sys = ⟨sys, -enodev, none, []⟩
  agrees : ∀ mtu : Numeral, 68 ≤ mtu.value → mtu.value ≤ 65535 →
    SetmtuResolves sys.toSystem (named param ++ 32 :: mtu.text) (showinterfaceIn m param sys).dev

/-- The name that `setmtu_in` takes from a text with a number after it, if there is one where it
looks for the number. -/
def mtuName (t : List UInt8) : Option (List UInt8) :=
  if afterWord t = [] ∨ (scanInt (afterWord t)).isSome then some (leadingWord t) else none

/-- The name is there and fits; and it is one word at the start of the parameter, or no device
has the first 15 bytes of the parameter or the word before a number for its name. -/
structure Resolvable (sys : System) (param : List UInt8) : Prop where
  given : named param ≠ []
  fits : (leadingWord (named param)).length < ifnamsiz
  clear : (named param <+: text param ∧ leadingWord (named param) = named param) ∨
    ∀ d ∈ sys.deviceList,
      (sys.device d).name ≠ trimTrailingWhitespace ((text param).take (ifnamsiz - 1)) ∧
        some (sys.device d).name ≠ mtuName (named param)

/-! ## The stripped text -/

theorem visible_strip {s : List UInt8} (h : strip s ≠ []) : Visible (strip s) := by
  obtain ⟨c, tail, hcons⟩ := List.exists_cons_of_ne_nil h
  have hprefix : c :: tail <+: s.dropWhile isspace := hcons ▸ List.rdropWhile_prefix isspace _
  obtain ⟨rest, hrest⟩ := hprefix
  have hhead := List.head?_dropWhile_not isspace s
  rw [← hrest] at hhead
  exact ⟨c, tail, hcons, by simpa using hhead⟩

theorem isspace_last_strip {s front : List UInt8} {c : UInt8} (h : strip s = front ++ [c]) :
    isspace c = false := by
  have hne : (s.dropWhile isspace).rdropWhile isspace ≠ [] := by
    change strip s ≠ []
    rw [h]
    simp
  have hlast := List.rdropWhile_last_not isspace _ hne
  have heq : ((s.dropWhile isspace).rdropWhile isspace).getLast hne = c := by
    apply Option.some.inj
    rw [← List.getLast?_eq_getLast_of_ne_nil]
    change (strip s).getLast? = _
    rw [h]
    simp
  rw [heq] at hlast
  simpa using hlast

theorem strip_append_spaces (s : List UInt8) :
    ∃ front back, s = front ++ (strip s ++ back) ∧ (∀ c ∈ front, isspace c = true) ∧
      ∀ c ∈ back, isspace c = true := by
  refine ⟨s.takeWhile isspace, (s.dropWhile isspace).rtakeWhile isspace, ?_, ?_, ?_⟩
  · rw [strip, List.rdropWhile_append_rtakeWhile, List.takeWhile_append_dropWhile]
  · exact fun c hc => List.mem_takeWhile_imp hc
  · exact fun c hc => List.mem_rtakeWhile_imp hc

/-! ## What show and clear look up -/

theorem trimLoop_isSuffix (str : List UInt8) : trimLoop str <:+ str := by
  induction str with
  | nil => exact List.suffix_refl _
  | cons c rest ih =>
      cases rest with
      | nil => exact List.suffix_refl _
      | cons d rest =>
          rw [trimLoop]
          split_ifs with hc
          · exact ih.trans (List.suffix_cons c _)
          · exact List.suffix_refl _

theorem trimLoop_append {spaces rest : List UInt8} {c : UInt8}
    (hspaces : ∀ d ∈ spaces, isspace d = true) (hc : isspace c = false) :
    trimLoop (spaces ++ c :: rest) = c :: rest := by
  induction spaces with
  | nil =>
      cases rest with
      | nil => rfl
      | cons d rest =>
          rw [List.nil_append, trimLoop, hc]
          rfl
  | cons d spaces ih =>
      have hd := hspaces d List.mem_cons_self
      have htail := ih fun e he => hspaces e (List.mem_cons_of_mem d he)
      cases spaces with
      | nil =>
          rw [List.cons_append, List.nil_append, trimLoop, if_pos hd]
          exact htail
      | cons e spaces =>
          rw [List.cons_append, List.cons_append, trimLoop, if_pos hd]
          exact htail

theorem trimTrailingWhitespace_append {front back : List UInt8} {c : UInt8}
    (hc : isspace c = false) (hback : ∀ d ∈ back, isspace d = true) :
    trimTrailingWhitespace (front ++ [c] ++ back) = front ++ [c] := by
  have hspaces : ∀ d ∈ back.reverse, isspace d = true :=
    fun d hd => hback d (List.mem_reverse.1 hd)
  have hloop : trimLoop (back.reverse ++ c :: front.reverse) = c :: front.reverse :=
    trimLoop_append hspaces hc
  have hreverse : (front ++ [c] ++ back).reverse = back.reverse ++ c :: front.reverse := by simp
  rw [trimTrailingWhitespace, hreverse, hloop]
  simp

theorem interfaceName_eq (param : List UInt8) :
    interfaceName param = trimTrailingWhitespace ((text param).take (ifnamsiz - 1)) := by
  rw [interfaceName, text_strncpy]

theorem trimTrailingWhitespace_isPrefix (str : List UInt8) :
    trimTrailingWhitespace str <+: str := by
  rw [trimTrailingWhitespace, ← List.reverse_suffix, List.reverse_reverse]
  exact trimLoop_isSuffix _

theorem interfaceName_isPrefix (param : List UInt8) : interfaceName param <+: text param := by
  rw [interfaceName_eq]
  exact (trimTrailingWhitespace_isPrefix _).trans (List.take_prefix _ _)

theorem text_eq_named_append {param : List UInt8} (hgiven : named param ≠ [])
    (hstart : named param <+: text param) :
    ∃ back, text param = named param ++ back ∧ ∀ c ∈ back, isspace c = true := by
  obtain ⟨front, back, htext, hfront, hback⟩ := strip_append_spaces (text param)
  change text param = front ++ (named param ++ back) at htext
  cases front with
  | nil => exact ⟨back, htext, hback⟩
  | cons c front =>
      obtain ⟨d, tail, hnamed, hd⟩ : Visible (named param) := visible_strip hgiven
      have hhead : d = c := by
        rw [hnamed, htext, List.cons_append, List.cons_prefix_cons] at hstart
        exact hstart.1
      rw [hhead, hfront c List.mem_cons_self] at hd
      contradiction

theorem interfaceName_eq_named {param : List UInt8} (hgiven : named param ≠ [])
    (hstart : named param <+: text param) (hfits : (named param).length < ifnamsiz) :
    interfaceName param = named param := by
  obtain ⟨back, htext, hback⟩ := text_eq_named_append hgiven hstart
  have htake : (text param).take (ifnamsiz - 1) =
      named param ++ back.take (ifnamsiz - 1 - (named param).length) := by
    rw [htext, List.take_append, List.take_of_length_le (by omega)]
  have hlast := List.dropLast_append_getLast hgiven
  have hvisible : isspace ((named param).getLast hgiven) = false :=
    isspace_last_strip (s := text param) hlast.symm
  have hspaces : ∀ c ∈ back.take (ifnamsiz - 1 - (named param).length), isspace c = true :=
    fun c hc => hback c (List.mem_of_mem_take hc)
  have htrim : trimTrailingWhitespace ((named param).dropLast ++ [(named param).getLast hgiven] ++
      back.take (ifnamsiz - 1 - (named param).length)) = _ :=
    trimTrailingWhitespace_append hvisible hspaces
  rw [hlast] at htrim
  rw [interfaceName_eq, htake, htrim]

/-! ## What setmtu looks up -/

theorem setmtuDevice_eq (sys : System) (param : List UInt8) :
    setmtuDevice sys param = ((scanSD param).map Prod.fst).bind sys.lookupDevice := by
  rw [setmtuDevice]
  cases hscan : scanSD param with
  | none => rfl
  | some scanned =>
      obtain ⟨name, mtu⟩ := scanned
      rw [Option.map_some, Option.bind_some, Option.bind_some,
        trimTrailingWhitespace_of_isspace (isspace_of_scanSD hscan)]

section

variable {t : List UInt8}

theorem sscanf_named (ht : Visible t) (format : List Directive) (rest : List UInt8) :
    sscanf (.s :: format) (t ++ 32 :: rest) = .str (leadingWord t) ::
      sscanf format ((t.dropWhile fun c => !isspace c) ++ 32 :: rest) := by
  have hvisible := ht.append (32 :: rest)
  have htake : ((t ++ 32 :: rest).takeWhile fun c => !isspace c) = leadingWord t :=
    takeWhile_append_cons rfl
  have hdrop : ((t ++ 32 :: rest).dropWhile fun c => !isspace c) =
      (t.dropWhile fun c => !isspace c) ++ 32 :: rest := dropWhile_append_cons rfl
  rw [sscanf, if_neg hvisible.ne_nil, hvisible.skipSpaces]
  simp only [htake, hdrop]

theorem setmtuWord_named (ht : Visible t) (rest : List UInt8) :
    setmtuWord (t ++ 32 :: rest) = leadingWord t := by
  rw [setmtuWord, sscanf_named ht]
  rfl

theorem visible_afterWord (h : afterWord t ≠ []) : Visible (afterWord t) := by
  obtain ⟨c, tail, hcons⟩ := List.exists_cons_of_ne_nil h
  have hhead := List.head?_dropWhile_not isspace (t.dropWhile fun c => !isspace c)
  change List.dropWhile _ _ = _ at hcons
  rw [hcons] at hhead
  exact ⟨c, tail, hcons, by simpa using hhead⟩

theorem skipSpaces_afterWord (t : List UInt8) {rest : List UInt8} (hrest : Visible rest) :
    skipSpaces ((t.dropWhile fun c => !isspace c) ++ 32 :: rest) =
      if afterWord t = [] then rest else afterWord t ++ 32 :: rest := by
  have hsplit := List.takeWhile_append_dropWhile (p := isspace)
    (l := t.dropWhile fun c => !isspace c)
  have hspaces : ∀ c ∈ (t.dropWhile fun c => !isspace c).takeWhile isspace,
      isspace c = true := fun c hc => List.mem_takeWhile_imp hc
  change _ ++ afterWord t = _ at hsplit
  rw [← hsplit]
  split_ifs with hafter
  · rw [hafter, List.append_nil]
    have hblank : ∀ c ∈ (t.dropWhile fun c => !isspace c).takeWhile isspace ++ [32],
        isspace c = true := by
      intro c hc
      rcases List.mem_append.1 hc with hc | hc
      · exact hspaces c hc
      · rw [List.mem_singleton.1 hc]
        rfl
    have hskip := skipSpaces_append hblank hrest
    rwa [List.append_assoc] at hskip
  · rw [List.append_assoc]
    exact skipSpaces_append hspaces ((visible_afterWord hafter).append _)

theorem scanSD_named (ht : Visible t) (mtu : Numeral) :
    (scanSD (t ++ 32 :: mtu.text)).map Prod.fst = mtuName t := by
  have hscan : sscanf [.s, .space, .d] (t ++ 32 :: mtu.text) = .str (leadingWord t) ::
      sscanf [.d] (if afterWord t = [] then mtu.text else afterWord t ++ 32 :: mtu.text) := by
    rw [sscanf_named ht, sscanf, skipSpaces_afterWord t mtu.visible]
  by_cases hafter : afterWord t = []
  · have hd : sscanf [.d] (mtu.text ++ []) = [.int (toInt mtu.value)] :=
      sscanf_d (s := []) (by simp) mtu (by simp)
    rw [List.append_nil] at hd
    rw [if_pos hafter, hd] at hscan
    rw [scanSD, hscan, mtuName, if_pos (Or.inl hafter)]
    rfl
  · have hvisible := (visible_afterWord hafter).append (32 :: mtu.text)
    rw [if_neg hafter, sscanf, if_neg hvisible.ne_nil, hvisible.skipSpaces] at hscan
    have hsome := isSome_scanInt_append hafter mtu.text
    cases hint : scanInt (afterWord t ++ 32 :: mtu.text) with
    | none =>
        rw [hint] at hscan hsome
        have hno : ¬(afterWord t = [] ∨ (scanInt (afterWord t)).isSome = true) := by
          rintro (h | h)
          · exact hafter h
          · exact absurd (hsome.2 h) (by decide)
        rw [scanSD, hscan, mtuName, if_neg hno]
        rfl
    | some scanned =>
        rw [hint] at hscan hsome
        rw [scanSD, hscan, mtuName, if_pos (Or.inr (hsome.1 rfl))]
        rfl

theorem setmtuDevice_named (ht : Visible t) (sys : System) (mtu : Numeral) :
    setmtuDevice sys (t ++ 32 :: mtu.text) = (mtuName t).bind sys.lookupDevice := by
  rw [setmtuDevice_eq, scanSD_named ht]

theorem mtuName_of_word (h : leadingWord t = t) : mtuName t = some t := by
  have hafter : afterWord t = [] := by
    have hsplit := List.takeWhile_append_dropWhile (p := fun c => !isspace c) (l := t)
    change leadingWord t ++ _ = t at hsplit
    rw [h, List.append_right_eq_self] at hsplit
    rw [afterWord, hsplit]
    rfl
  rw [mtuName, if_pos (Or.inl hafter), h]

theorem leadingWord_of_mtuName {name : List UInt8} (h : mtuName t = some name) :
    name = leadingWord t := by
  unfold mtuName at h
  split_ifs at h
  exact (Option.some.inj h).symm

end

/-! ## The three commands -/

namespace System

variable {sys : System} {name : List UInt8}

theorem name_of_lookupDevice {d : ℕ} (h : sys.lookupDevice name = some d) :
    (sys.device d).name = name := by
  simpa using List.find?_some h

theorem lookupDevice_eq_none_iff :
    sys.lookupDevice name = none ↔ ∀ d ∈ sys.deviceList, (sys.device d).name ≠ name := by
  rw [lookupDevice, List.find?_eq_none]
  simp

end System

variable {m : Machine} {param : List UInt8} {sys : NetSystem}

def longMtu : Numeral where
  minus := false
  digits := bytes "0000000000000068"
  nonempty := by decide
  isdigit := List.all_eq_true.1 (by decide)

/-- Without a name `%s` takes the number, and that may be too long. -/
theorem ActsOnNamed.given (h : ActsOnNamed m param sys) : named param ≠ [] := by
  intro hempty
  obtain ⟨hfits, -⟩ := h.agrees longMtu (by decide) (by decide)
  rw [hempty] at hfits
  exact absurd hfits (by decide)

theorem text_ne_nil_of_named (hgiven : named param ≠ []) : text param ≠ [] := by
  intro hempty
  apply hgiven
  rw [named, hempty]
  rfl

/-- For a name that is there, the commands agree when `setmtu_in` keeps to its array and both
names lead to one device. -/
theorem agrees_iff (hgiven : named param ≠ []) (dev : Option ℕ) (mtu : Numeral) :
    SetmtuResolves sys.toSystem (named param ++ 32 :: mtu.text) dev ↔
      (leadingWord (named param)).length < ifnamsiz ∧
        (mtuName (named param)).bind sys.lookupDevice = dev := by
  have hvisible : Visible (named param) := visible_strip hgiven
  rw [SetmtuResolves, setmtuWord_named hvisible, setmtuDevice_named hvisible]

theorem ActsOnNamed.lookup (h : ActsOnNamed m param sys) :
    (leadingWord (named param)).length < ifnamsiz ∧
      (mtuName (named param)).bind sys.lookupDevice = sys.lookupDevice (interfaceName param) := by
  have hagrees := h.agrees longMtu (by decide) (by decide)
  rwa [agrees_iff h.given, showinterfaceIn_dev, interfaceDevice,
    if_neg (text_ne_nil_of_named h.given)] at hagrees

/-- A device that is shown has the name that the user gave, and `setmtu_in` finds it by the first
word of the name. -/
theorem ActsOnNamed.word_of_lookup (h : ActsOnNamed m param sys) {d : ℕ}
    (hd : sys.lookupDevice (interfaceName param) = some d) :
    named param <+: text param ∧ leadingWord (named param) = named param := by
  have hshown : (showinterfaceIn m param sys).dev = some d := by
    rw [showinterfaceIn_dev, interfaceDevice, if_neg (text_ne_nil_of_named h.given), hd]
  have hname : interfaceName param = named param := by
    rw [← h.shows d hshown, System.name_of_lookupDevice hd]
  have hfound := h.lookup.2
  rw [hd, Option.bind_eq_some_iff] at hfound
  obtain ⟨word, hmtu, hlookup⟩ := hfound
  constructor
  · rw [← hname]
    exact interfaceName_isPrefix param
  · rw [← leadingWord_of_mtuName hmtu, ← System.name_of_lookupDevice hlookup, h.shows d hshown]

theorem ActsOnNamed.resolvable (h : ActsOnNamed m param sys) :
    Resolvable sys.toSystem param := by
  obtain ⟨hfits, hagrees⟩ := h.lookup
  refine ⟨h.given, hfits, ?_⟩
  cases hshow : sys.lookupDevice (interfaceName param) with
  | some d => exact Or.inl (h.word_of_lookup hshow)
  | none =>
      right
      intro d hd
      rw [hshow] at hagrees
      rw [interfaceName_eq, System.lookupDevice_eq_none_iff] at hshow
      refine ⟨hshow d hd, ?_⟩
      intro hmtu
      rw [← hmtu, Option.bind_some, System.lookupDevice_eq_none_iff] at hagrees
      exact hagrees d hd rfl

/-- Either both names are the one that the user gave, or neither is in the table. -/
theorem Resolvable.lookup (h : Resolvable sys.toSystem param) :
    (interfaceName param = named param ∧ mtuName (named param) = some (named param)) ∨
      sys.lookupDevice (interfaceName param) = none ∧
        (mtuName (named param)).bind sys.lookupDevice = none := by
  rcases h.clear with ⟨hstart, hword⟩ | hclear
  · have hfits := h.fits
    rw [hword] at hfits
    exact Or.inl ⟨interfaceName_eq_named h.given hstart hfits, mtuName_of_word hword⟩
  · right
    constructor
    · rw [interfaceName_eq, System.lookupDevice_eq_none_iff]
      exact fun d hd => (hclear d hd).1
    · cases hmtu : mtuName (named param) with
      | none => rfl
      | some word =>
          rw [Option.bind_some, System.lookupDevice_eq_none_iff]
          intro d hd heq
          exact (hclear d hd).2 (by rw [hmtu, heq])

theorem Resolvable.device (h : Resolvable sys.toSystem param) :
    (mtuName (named param)).bind sys.lookupDevice = interfaceDevice sys.toSystem param := by
  rw [interfaceDevice, if_neg (text_ne_nil_of_named h.given)]
  rcases h.lookup with ⟨hname, hmtu⟩ | ⟨hnone, hmtu⟩
  · rw [hname, hmtu, Option.bind_some]
  · rw [hnone, hmtu]

theorem Resolvable.name_of_device (h : Resolvable sys.toSystem param) {d : ℕ}
    (hd : interfaceDevice sys.toSystem param = some d) : (sys.device d).name = named param := by
  have hlookup := lookupDevice_of_device hd
  rcases h.lookup with ⟨hname, -⟩ | ⟨hnone, -⟩
  · rw [System.name_of_lookupDevice hlookup, hname]
  · rw [hnone] at hlookup
    contradiction

theorem Resolvable.device_eq_none (h : Resolvable sys.toSystem param)
    (habsent : ∀ d ∈ sys.deviceList, (sys.device d).name ≠ named param) :
    interfaceDevice sys.toSystem param = none := by
  rw [interfaceDevice, if_neg (text_ne_nil_of_named h.given)]
  rcases h.lookup with ⟨hname, -⟩ | ⟨hnone, -⟩
  · rw [hname]
    exact System.lookupDevice_eq_none_iff.2 habsent
  · exact hnone

/-- The commands act on the interface that the user named exactly when the name is one word of
less than 16 bytes at the start of the parameter, or what they make of the parameter names no
interface at all. -/
theorem sys2_interface_named_iff (m : Machine) (param : List UInt8) (sys : NetSystem) :
    ActsOnNamed m param sys ↔ Resolvable sys.toSystem param := by
  constructor
  · exact ActsOnNamed.resolvable
  · intro h
    have htext := text_ne_nil_of_named h.given
    constructor
    · intro d hd
      rw [showinterfaceIn_dev] at hd
      exact h.name_of_device hd
    · intro d hd
      rw [clearinterfaceIn_dev] at hd
      exact h.name_of_device hd
    · intro habsent
      have hdev := h.device_eq_none habsent
      exact ⟨showinterfaceIn_of_absent htext hdev, clearinterfaceIn_of_absent htext hdev⟩
    · intro mtu _ _
      rw [agrees_iff h.given, showinterfaceIn_dev]
      exact ⟨h.fits, h.device⟩

/-- The user asks for `docker-gateway12`, which there is not, and is shown `docker-gateway1`. With
a space before the name, `eth0` is shown to nobody, while `setmtu_in` finds it. -/
theorem sys2_interface_truncates_name :
    (showinterfaceIn amd64 (bytes "docker-gateway12\n")
        (oneInterface (bytes "docker-gateway1") ⟨[], fun _ => 0, none⟩)).dev = some 0 ∧
      ¬ ActsOnNamed amd64 (bytes "docker-gateway12\n")
        (oneInterface (bytes "docker-gateway1") ⟨[], fun _ => 0, none⟩) ∧
      ¬ ActsOnNamed amd64 (bytes " eth0\n")
        (oneInterface (bytes "eth0") ⟨[], fun _ => 0, none⟩) := by
  have hshown : (showinterfaceIn amd64 (bytes "docker-gateway12\n")
      (oneInterface (bytes "docker-gateway1") ⟨[], fun _ => 0, none⟩)).dev = some 0 := by
    rw [showinterfaceIn_dev]
    decide
  refine ⟨hshown, ?_, ?_⟩
  · intro h
    exact absurd (h.shows 0 hshown) (by decide)
  · intro h
    obtain ⟨-, hdev⟩ := h.agrees longMtu (by decide) (by decide)
    rw [showinterfaceIn_dev] at hdev
    exact absurd hdev (by decide)

end Sys2
