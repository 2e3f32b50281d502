import LinuxDriver.CString
import Mathlib.Data.Int.Notation

/-!
# The kernel's sscanf on `%d` and `%s`

`sscanf` is modelled by the list of the values it stores; the number it returns is the
length of the list. Field widths are left out: the default width of `%s` is far beyond the
length of a sysfs parameter.
-/

namespace CString

/-- The kernel's `isspace`: tab to carriage return, the space and the no-break space. -/
def isspace (c : UInt8) : Bool := (9 ≤ c && c ≤ 13) || c = 32 || c = 160

def isdigit (c : UInt8) : Bool := 48 ≤ c && c ≤ 57

def skipSpaces (str : List UInt8) : List UInt8 := str.dropWhile isspace

/-- What the format asks for next; `space` is white space in the format. -/
inductive Directive where
  | space
  | d
  | s
  deriving DecidableEq, Repr

inductive Value where
  | int (n : ℤ)
  | str (s : List UInt8)
  deriving DecidableEq, Repr

def decimal (digits : List UInt8) : ℕ := digits.foldl (fun n c => n * 10 + (c.toNat - 48)) 0

def toInt (n : ℤ) : ℤ := n.bmod 0x100000000

def unsignedPart (str : List UInt8) : List UInt8 :=
  match str with
  | 45 :: rest => rest
  | _ => str

/-- The number that starts `str`, negative after a minus sign, and what follows it. -/
def scanInt (str : List UInt8) : Option (ℤ × List UInt8) :=
  let digits := (unsignedPart str).takeWhile isdigit
  let rest := (unsignedPart str).dropWhile isdigit
  if digits = [] then none
  else if str.head? = some 45 then some (toInt (-decimal digits), rest)
  else some (toInt (decimal digits), rest)

/-- The values stored by `sscanf`. A conversion stops the scan at the end of the input; `%s`
stores the empty string when only white space is left. -/
def sscanf : List Directive → List UInt8 → List Value
  | [], _ => []
  | .space :: format, str => sscanf format (skipSpaces str)
  | .d :: format, str =>
      if str = [] then []
      else match scanInt (skipSpaces str) with
        | none => []
        | some (n, rest) => .int n :: sscanf format rest
  | .s :: format, str =>
      if str = [] then []
      else
        let word := (skipSpaces str).takeWhile fun c => !isspace c
        .str word :: sscanf format ((skipSpaces str).dropWhile fun c => !isspace c)

example : sscanf [.d, .space, .d] (bytes " -12\t4294967298x") = [.int (-12), .int 2] := by
  decide

theorem isspace_of_mem_sscanf {format : List Directive} {str word : List UInt8}
    (h : Value.str word ∈ sscanf format str) : ∀ c ∈ word, isspace c = false := by
  induction format generalizing str with
  | nil => simp [sscanf] at h
  | cons directive format ih =>
      cases directive with
      | space => exact ih h
      | d =>
          by_cases hend : str = []
          · simp [sscanf, hend] at h
          cases hscan : scanInt (skipSpaces str) with
          | none => simp [sscanf, hend, hscan] at h
          | some scanned =>
              simp only [sscanf, if_neg hend, hscan, List.mem_cons, reduceCtorEq,
                false_or] at h
              exact ih h
      | s =>
          by_cases hend : str = []
          · simp [sscanf, hend] at h
          simp only [sscanf, if_neg hend, List.mem_cons, Value.str.injEq] at h
          rcases h with rfl | h
          · exact fun c hc => by simpa using List.mem_takeWhile_imp hc
          · exact ih h

/-- `sscanf(str, "%d", &a) >= 1`, with the number stored. -/
def scanD (str : List UInt8) : Option ℤ :=
  match sscanf [.d] str with
  | .int a :: _ => some a
  | _ => none

/-- `sscanf(str, "%d %d", &a, &b) == 2`. -/
def scanDD (str : List UInt8) : Option (ℤ × ℤ) :=
  match sscanf [.d, .space, .d] str with
  | [.int a, .int b] => some (a, b)
  | _ => none

/-- `sscanf(str, "%s %d", s, &a) == 2`. -/
def scanSD (str : List UInt8) : Option (List UInt8 × ℤ) :=
  match sscanf [.s, .space, .d] str with
  | [.str s, .int a] => some (s, a)
  | _ => none

/-- `sscanf(str, "%d %d %d %d", &a, &b, &c, &d) == 4`. -/
def scanDDDD (str : List UInt8) : Option (ℤ × ℤ × ℤ × ℤ) :=
  match sscanf [.d, .space, .d, .space, .d, .space, .d] str with
  | [.int a, .int b, .int c, .int d] => some (a, b, c, d)
  | _ => none

theorem isspace_of_scanSD {str word : List UInt8} {n : ℤ} (h : scanSD str = some (word, n)) :
    ∀ c ∈ word, isspace c = false := by
  unfold scanSD at h
  split at h
  · next hscan =>
      obtain ⟨rfl, rfl⟩ := Prod.mk.inj (Option.some.inj h)
      exact isspace_of_mem_sscanf (hscan ▸ List.mem_cons_self)
  · contradiction

end CString
