import LinuxDriver.Sys2Command
import LinuxDriver.Sys2InterfaceName

/-!
# The name buffer of setmtu

`setmtu_in` scans the name with a `%s` that has no width. The array for it has `IFNAMSIZ` bytes.
-/

open CString

namespace Sys2

/-- The bytes that `sscanf(param, "%s %d", interface_name, &new_mtu)` stores from the start of
`interface_name` on. The devices are looked up later. -/
def setmtuStores (param : List UInt8) : List UInt8 :=
  if param = [] then []
  else match sscanf [.s, .space, .d] param with
    | .str name :: _ => name ++ [0]
    | _ => []

def SetmtuInside (d : MyData) (buf : List UInt8) (count : ℕ) : Prop :=
  ∀ c ∈ (myDataStore d buf count).calls, c.handler = .setmtu →
    (setmtuStores c.param).length ≤ ifnamsiz

def setmtu : CommandHandler := ⟨bytes "setmtu", .setmtu⟩

/-- What follows `setmtu` and one byte more, or what the array holds there when the text is
`setmtu` alone. -/
def setmtuParam (d : MyData) (t : List UInt8) : List UInt8 :=
  if 6 < t.length then t.drop 7 else text (d.mem.drop 7)

theorem length_setmtuStores_le_iff (param : List UInt8) :
    (setmtuStores param).length ≤ ifnamsiz ↔
      (leadingWord (skipSpaces param)).length < ifnamsiz := by
  unfold setmtuStores
  by_cases hempty : param = []
  · rw [if_pos hempty, hempty]
    decide
  · rw [if_neg hempty, sscanf, if_neg hempty]
    change (leadingWord (skipSpaces param) ++ [0]).length ≤ ifnamsiz ↔ _
    rw [List.length_append, List.length_singleton]
    exact Nat.succ_le_iff

theorem eq_setmtu {e : CommandHandler} (he : e ∈ commandHandlers)
    (h : e.cmd <+: setmtu.cmd ∨ setmtu.cmd <+: e.cmd) : e = setmtu :=
  (by decide : ∀ e ∈ commandHandlers, e.cmd <+: setmtu.cmd ∨ setmtu.cmd <+: e.cmd →
    e = setmtu) e he h

theorem entry_of_setmtu {t : List UInt8} (h : setmtu.cmd <+: t) : entry t = some setmtu := by
  cases hentry : entry t with
  | none =>
      have hno := List.find?_eq_none.1 hentry setmtu (by decide)
      exact absurd (decide_eq_true h) hno
  | some e =>
      obtain ⟨he, hpre⟩ := entry_prefix hentry
      rw [eq_setmtu he (List.prefix_or_prefix_of_prefix hpre h)]

theorem setmtu_of_handler {e : CommandHandler} (he : e ∈ commandHandlers)
    (h : e.handler = .setmtu) : e = setmtu :=
  (by decide : ∀ e ∈ commandHandlers, e.handler = .setmtu → e = setmtu) e he h

theorem setmtu_calls_iff (d : MyData) (buf : List UInt8) (count : ℕ) (c : Call) :
    c ∈ (myDataStore d buf count).calls ∧ c.handler = .setmtu ↔
      setmtu.cmd <+: stored buf ∧ c = ⟨.setmtu, setmtuParam d (stored buf)⟩ := by
  have hparam : (d.snprintf buf).param setmtu = setmtuParam d (stored buf) :=
    d.param_snprintf buf setmtu
  rw [myDataStore_calls, Option.mem_toList, Option.map_eq_some_iff]
  constructor
  · rintro ⟨⟨e, hentry, rfl⟩, hhandler⟩
    obtain ⟨he, hpre⟩ := entry_prefix hentry
    obtain rfl := setmtu_of_handler he hhandler
    rw [hparam]
    exact ⟨hpre, rfl⟩
  · rintro ⟨hpre, rfl⟩
    refine ⟨⟨setmtu, entry_of_setmtu hpre, ?_⟩, rfl⟩
    rw [hparam]
    rfl

theorem setmtu_inside_iff (d : MyData) (buf : List UInt8) (count : ℕ) :
    SetmtuInside d buf count ↔ (bytes "setmtu" <+: stored buf →
      (leadingWord (skipSpaces (setmtuParam d (stored buf)))).length < ifnamsiz) := by
  constructor
  · intro hinside hpre
    obtain ⟨hcall, hhandler⟩ := (setmtu_calls_iff d buf count _).2 ⟨hpre, rfl⟩
    rw [← length_setmtuStores_le_iff]
    exact hinside _ hcall hhandler
  · intro hfits c hc hhandler
    obtain ⟨hpre, rfl⟩ := (setmtu_calls_iff d buf count c).1 ⟨hc, hhandler⟩
    rw [length_setmtuStores_le_iff]
    exact hfits hpre

/-- Sixteen letters for a name take seventeen bytes. -/
theorem setmtu_overruns_buffer :
    (myDataStore MyData.zero (bytes "setmtu abcdefghijklmnop 1500") 28).calls =
        [⟨.setmtu, bytes "abcdefghijklmnop 1500"⟩] ∧
      (setmtuStores (bytes "abcdefghijklmnop 1500")).length = 17 ∧
      ¬ SetmtuInside MyData.zero (bytes "setmtu abcdefghijklmnop 1500") 28 := by
  have hcalls : (myDataStore MyData.zero (bytes "setmtu abcdefghijklmnop 1500") 28).calls =
      [⟨.setmtu, bytes "abcdefghijklmnop 1500"⟩] := by decide
  have hlength : (setmtuStores (bytes "abcdefghijklmnop 1500")).length = 17 := by decide
  refine ⟨hcalls, hlength, ?_⟩
  intro hinside
  have hle := hinside ⟨.setmtu, bytes "abcdefghijklmnop 1500"⟩ (by simp [hcalls]) rfl
  rw [hlength] at hle
  contradiction

end Sys2
