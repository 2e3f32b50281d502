import LinuxDriver.CString
import Mathlib.Data.List.Range
import Mathlib.Data.List.Flatten

/-!
# The hex dump

`common/dbgmsg.c`: `DbgPrintMsg` collects two hexadecimal digits for each byte in `ucBuf` and
prints the buffer at every sixteenth byte. That byte itself goes into no buffer, and what is
collected after the last sixteenth byte is not printed.
-/

open CString

namespace DbgMsg

def hexDigit (n : UInt8) : UInt8 := if n < 10 then 48 + n else 87 + n

/-- `%02x` of a byte. -/
def x02 (b : UInt8) : List UInt8 := [hexDigit (b / 16), hexDigit (b % 16)]

def ucBufSize : ℕ := 64

/-- The local variables of `DbgPrintMsg` and the lines printed so far. -/
structure Locals where
  ucBuf : List UInt8
  dwCur : UInt32
  dwNum : UInt32
  out : List (List UInt8)

def memset : List UInt8 := List.replicate ucBufSize 0

/-- `TLVLOOPS(dwLp, total)` with a loop body. -/
def tlvloops {σ : Type*} (body : UInt32 → σ → σ) (total dwLp : UInt32) (s : σ) : σ :=
  if dwLp < total then tlvloops body total (dwLp + 1) (body dwLp s) else s
termination_by total.toNat - dwLp.toNat
decreasing_by
  rename_i h
  have hlt : dwLp.toNat < total.toNat := UInt32.lt_iff_toNat_lt.1 h
  have htotal := total.toNat_lt
  rw [UInt32.toNat_add, UInt32.toNat_one, Nat.mod_eq_of_lt (by omega)]
  omega

/-- One pass of the loop: print the buffer and clear it, or append a byte. -/
def pass (pMsg : ℕ → UInt8) (dwLp : UInt32) (s : Locals) : Locals :=
  if dwLp % 16 = 0 then
    { s with
      ucBuf := memset
      dwCur := 0
      out := s.out ++ [bytes " " ++ text s.ucBuf ++ bytes "\n"] }
  else
    let digits := x02 (pMsg dwLp.toNat)
    { s with
      ucBuf := s.ucBuf.take s.dwCur.toNat ++ snprintfS (s.ucBuf.drop s.dwCur.toNat) 3 digits
      dwNum := UInt32.ofNat digits.length
      dwCur := s.dwCur + UInt32.ofNat digits.length }

def beginMarker : List UInt8 := bytes "--------------------- begin\n"

def endMarker : List UInt8 := bytes "--------------------- end\n"

def start : Locals := ⟨memset, 0, 0, [beginMarker]⟩

/-- The lines that are printed, and the result. -/
def dbgPrintMsg (pMsg : ℕ → UInt8) (dwLen : UInt32) : List (List UInt8) × UInt32 :=
  let s := tlvloops (pass pMsg) dwLen 0 start
  (s.out ++ [bytes "\n", endMarker], 0)

/-- The digits of a line. -/
def digits (line : List UInt8) : List UInt8 := line.filter fun c => c ≠ 32 && c ≠ 10

/-- The digits printed between the two markers. -/
def dump (out : List (List UInt8)) : List UInt8 := (out.drop 1).dropLast.flatMap digits

def encode (pMsg : ℕ → UInt8) (is : List ℕ) : List UInt8 := is.flatMap fun i => x02 (pMsg i)

/-! ## The loop as a fold -/

theorem tlvloops_eq {σ : Type*} (body : UInt32 → σ → σ) {total : UInt32} {k n : ℕ}
    (hk : k + n = total.toNat) (s : σ) : tlvloops body total (UInt32.ofNat k) s =
      (List.range' k n).foldl (fun s i => body (UInt32.ofNat i) s) s := by
  induction n generalizing k s with
  | zero =>
      have htotal : UInt32.ofNat k = total := by
        rw [show k = total.toNat by omega, UInt32.ofNat_toNat]
      rw [tlvloops, htotal, if_neg (UInt32.lt_irrefl total)]
      rfl
  | succ n ih =>
      have hlt : UInt32.ofNat k < total := by
        have htotal := total.toNat_lt
        rw [UInt32.lt_iff_toNat_lt, UInt32.toNat_ofNat', Nat.mod_eq_of_lt (by omega)]
        omega
      rw [tlvloops, if_pos hlt, List.range'_succ, List.foldl_cons,
        show UInt32.ofNat k + 1 = UInt32.ofNat (k + 1) by rw [UInt32.ofNat_add]; rfl]
      exact ih (by omega) _

def run (pMsg : ℕ → UInt8) (n : ℕ) : Locals :=
  (List.range n).foldl (fun s i => pass pMsg (UInt32.ofNat i) s) start

theorem run_succ (pMsg : ℕ → UInt8) (n : ℕ) :
    run pMsg (n + 1) = pass pMsg (UInt32.ofNat n) (run pMsg n) := by
  rw [run, List.range_succ, List.foldl_append]
  rfl

theorem dbgPrintMsg_eq (pMsg : ℕ → UInt8) (dwLen : UInt32) :
    dbgPrintMsg pMsg dwLen = ((run pMsg dwLen.toNat).out ++ [bytes "\n", endMarker], 0) := by
  have hloop : tlvloops (pass pMsg) dwLen 0 start = run pMsg dwLen.toNat := by
    rw [run, List.range_eq_range']
    exact tlvloops_eq (pass pMsg) (Nat.zero_add dwLen.toNat) _
  unfold dbgPrintMsg
  rw [hloop]

/-! ## What is printed and what is pending -/

/-- Neither NUL nor what the lines have around their digits. -/
def Hex (c : UInt8) : Prop := c ≠ 0 ∧ c ≠ 10 ∧ c ≠ 32

theorem hex_hexDigit {n : UInt8} (hn : n.toNat < 16) : Hex (hexDigit n) := by
  have hall : ∀ k : Fin 16, hexDigit (UInt8.ofNat k) ≠ 0 ∧ hexDigit (UInt8.ofNat k) ≠ 10 ∧
      hexDigit (UInt8.ofNat k) ≠ 32 := by decide
  have hk := hall ⟨n.toNat, hn⟩
  rwa [UInt8.ofNat_toNat] at hk

theorem hex_x02 (b : UInt8) : ∀ c ∈ x02 b, Hex c := by
  intro c hc
  have hb := b.toNat_lt
  simp only [x02, List.mem_cons, List.not_mem_nil, or_false] at hc
  rcases hc with rfl | rfl
  · apply hex_hexDigit
    rw [UInt8.toNat_div]
    exact Nat.div_lt_of_lt_mul hb
  · apply hex_hexDigit
    rw [UInt8.toNat_mod]
    exact Nat.mod_lt _ (by decide)

theorem text_of_hex {l : List UInt8} (hl : ∀ c ∈ l, Hex c) {m : ℕ} :
    text (l ++ List.replicate (m + 1) 0) = l := by
  rw [List.replicate_succ]
  exact text_append_zero (fun h => (hl 0 h).1 rfl) _

theorem digits_of_hex {l : List UInt8} (hl : ∀ c ∈ l, Hex c) :
    digits (bytes " " ++ l ++ bytes "\n") = l := by
  have hkeep : l.filter (fun c => c ≠ 32 && c ≠ 10) = l := by
    rw [List.filter_eq_self]
    intro c hc
    simp [(hl c hc).2.1, (hl c hc).2.2]
  simp only [digits, List.filter_append, hkeep]
  simp [bytes]

/-- The bytes that are put into the buffer: none at a multiple of 16. -/
def appended (n : ℕ) : List ℕ := (List.range n).filter fun i => i % 16 ≠ 0

def printed (s : Locals) : List UInt8 := (s.out.drop 1).flatMap digits

/-- `pending` is in the buffer, and with what has been printed it is everything appended. The
lines hold what was appended before the last byte at which the buffer was printed. -/
structure Collected (pMsg : ℕ → UInt8) (n : ℕ) (s : Locals) (pending : List UInt8) : Prop where
  buffer : s.ucBuf = pending ++ List.replicate (ucBufSize - pending.length) 0
  hex : ∀ c ∈ pending, Hex c
  cur : s.dwCur.toNat = pending.length
  length : pending.length = 2 * ((n - 1) % 16)
  begun : s.out ≠ []
  all : printed s ++ pending = encode pMsg (appended n)
  lines : printed s = encode pMsg (appended (16 * ((n - 1) / 16)))

theorem Collected.text_buffer {pMsg : ℕ → UInt8} {n : ℕ} {s : Locals} {pending : List UInt8}
    (h : Collected pMsg n s pending) : text s.ucBuf = pending := by
  have hlen := h.length
  have hroom : ucBufSize - pending.length = 63 - pending.length + 1 := by
    simp only [ucBufSize]
    omega
  rw [h.buffer, hroom]
  exact text_of_hex h.hex

theorem collected_zero (pMsg : ℕ → UInt8) : Collected pMsg 0 (run pMsg 0) [] where
  buffer := rfl
  hex := by simp
  cur := rfl
  length := rfl
  begun := by simp [run, start]
  all := rfl
  lines := rfl

theorem appended_succ (n : ℕ) :
    appended (n + 1) = appended n ++ if n % 16 = 0 then [] else [n] := by
  rw [appended, List.range_succ, List.filter_append]
  by_cases hn : n % 16 = 0
  · simp [appended, hn]
  · simp [appended, hn]

theorem encode_append (pMsg : ℕ → UInt8) (is js : List ℕ) :
    encode pMsg (is ++ js) = encode pMsg is ++ encode pMsg js := List.flatMap_append

/-- A flush prints what is pending. -/
theorem collected_flush {pMsg : ℕ → UInt8} {n : ℕ} {s : Locals} {pending : List UInt8}
    (h : Collected pMsg n s pending) (hn : n % 16 = 0) :
    Collected pMsg (n + 1) { s with
      ucBuf := memset
      dwCur := 0
      out := s.out ++ [bytes " " ++ text s.ucBuf ++ bytes "\n"] } [] := by
  have htext := h.text_buffer
  have hprinted : printed { s with
      ucBuf := memset
      dwCur := 0
      out := s.out ++ [bytes " " ++ text s.ucBuf ++ bytes "\n"] } = encode pMsg (appended n) := by
    obtain ⟨first, rest, hout⟩ := List.exists_cons_of_ne_nil h.begun
    have hall := h.all
    simp only [printed, hout, List.drop_one, List.tail_cons] at hall
    simp only [← hall, printed, hout, htext, List.cons_append, List.drop_one, List.tail_cons,
      List.flatMap_append, List.flatMap_cons, List.flatMap_nil, List.append_nil,
      digits_of_hex h.hex]
  refine ⟨rfl, by simp, rfl, ?_, by simp, ?_, ?_⟩
  · simp only [List.length_nil, Nat.add_sub_cancel]
    omega
  · rw [appended_succ, if_pos hn, List.append_nil, List.append_nil]
    exact hprinted
  · rw [hprinted, Nat.add_sub_cancel, Nat.mul_div_cancel' (Nat.dvd_of_mod_eq_zero hn)]

theorem collected_append {pMsg : ℕ → UInt8} {n : ℕ} {s : Locals} {pending : List UInt8}
    (h : Collected pMsg n s pending) (hn : n % 16 ≠ 0) (dwNum : UInt32) :
    Collected pMsg (n + 1) { s with
      ucBuf := s.ucBuf.take s.dwCur.toNat ++
        snprintfS (s.ucBuf.drop s.dwCur.toNat) 3 (x02 (pMsg n))
      dwNum := dwNum
      dwCur := s.dwCur + 2 } (pending ++ x02 (pMsg n)) := by
  have hlen := h.length
  have hx := hex_x02 (pMsg n)
  have hroom : pending.length + 2 < ucBufSize := by
    simp only [ucBufSize]
    omega
  have htext : (text (x02 (pMsg n))).take (3 - 1) = x02 (pMsg n) := by
    rw [text_eq_self fun h0 => (hx 0 h0).1 rfl]
    rfl
  have hbuf : s.ucBuf.take s.dwCur.toNat ++
      snprintfS (s.ucBuf.drop s.dwCur.toNat) 3 (x02 (pMsg n)) =
      pending ++ x02 (pMsg n) ++
        List.replicate (ucBufSize - (pending ++ x02 (pMsg n)).length) 0 := by
    rw [h.buffer, h.cur, List.take_left, List.drop_left, snprintfS_replicate, htext,
      List.append_assoc, List.length_append, Nat.sub_add_eq]
    rw [htext]
    simp only [x02, List.length_cons, List.length_nil]
    omega
  refine ⟨hbuf, fun c hc => ?_, ?_, ?_, h.begun, ?_, ?_⟩
  · exact (List.mem_append.1 hc).elim (h.hex c) (hx c)
  · have htwo : (s.dwCur + 2).toNat = s.dwCur.toNat + 2 := by
      rw [UInt32.toNat_add, show (2 : UInt32).toNat = 2 from rfl]
      apply Nat.mod_eq_of_lt
      rw [h.cur]
      simp only [ucBufSize] at hroom
      omega
    simp only [htwo, h.cur, List.length_append, x02, List.length_cons, List.length_nil]
  · simp only [List.length_append, x02, List.length_cons, List.length_nil]
    omega
  · rw [appended_succ, if_neg hn, encode_append, ← h.all, List.append_assoc]
    simp [encode, printed]
  · rw [show (n + 1 - 1) / 16 = (n - 1) / 16 by omega]
    exact h.lines

theorem toNat_ofNat_of_lt {n : ℕ} (hlt : n < 0x100000000) : (UInt32.ofNat n).toNat = n := by
  rw [UInt32.toNat_ofNat']
  exact Nat.mod_eq_of_lt hlt

theorem ofNat_mod_eq_zero_iff {n : ℕ} (hlt : n < 0x100000000) :
    UInt32.ofNat n % 16 = 0 ↔ n % 16 = 0 := by
  rw [← UInt32.toNat_inj, UInt32.toNat_mod, toNat_ofNat_of_lt hlt]
  rfl

theorem pass_ofNat {pMsg : ℕ → UInt8} {n : ℕ} {s : Locals} (hlt : n < 0x100000000) :
    pass pMsg (UInt32.ofNat n) s = if n % 16 = 0 then
      { s with
        ucBuf := memset
        dwCur := 0
        out := s.out ++ [bytes " " ++ text s.ucBuf ++ bytes "\n"] }
    else
      { s with
        ucBuf := s.ucBuf.take s.dwCur.toNat ++
          snprintfS (s.ucBuf.drop s.dwCur.toNat) 3 (x02 (pMsg n))
        dwNum := 2
        dwCur := s.dwCur + 2 } := by
  simp only [pass, ofNat_mod_eq_zero_iff hlt, toNat_ofNat_of_lt hlt]
  rfl

theorem collected_run (pMsg : ℕ → UInt8) {n : ℕ} (hn : n ≤ 0x100000000) :
    ∃ pending, Collected pMsg n (run pMsg n) pending := by
  induction n with
  | zero => exact ⟨[], collected_zero pMsg⟩
  | succ n ih =>
      obtain ⟨pending, h⟩ := ih (by omega)
      rw [run_succ, pass_ofNat (by omega)]
      by_cases hdvd : n % 16 = 0
      · rw [if_pos hdvd]
        exact ⟨[], collected_flush h hdvd⟩
      · rw [if_neg hdvd]
        exact ⟨_, collected_append h hdvd 2⟩

theorem dump_append_end (first : List UInt8) (lines : List (List UInt8)) :
    dump (first :: lines ++ [bytes "\n", endMarker]) = lines.flatMap digits := by
  have hend : first :: lines ++ [bytes "\n", endMarker] =
      first :: (lines ++ [bytes "\n"] ++ [endMarker]) := by simp
  rw [dump, hend, List.drop_one, List.tail_cons, List.dropLast_concat, List.flatMap_append]
  simp [digits, bytes]

/-- The dump has the bytes before the last multiple of 16, without the multiples of 16. -/
theorem dump_dbgPrintMsg (pMsg : ℕ → UInt8) (dwLen : UInt32) :
    dump (dbgPrintMsg pMsg dwLen).1 =
      encode pMsg (appended (16 * ((dwLen.toNat - 1) / 16))) := by
  obtain ⟨pending, h⟩ := collected_run pMsg dwLen.toNat_lt.le
  obtain ⟨first, rest, hout⟩ := List.exists_cons_of_ne_nil h.begun
  rw [← h.lines, dbgPrintMsg_eq, printed, hout, dump_append_end]
  rfl

theorem length_encode (pMsg : ℕ → UInt8) (is : List ℕ) :
    (encode pMsg is).length = 2 * is.length := by
  induction is with
  | nil => rfl
  | cons i is ih =>
      have hcons : encode pMsg (i :: is) = x02 (pMsg i) ++ encode pMsg is := rfl
      rw [hcons, List.length_append, ih, List.length_cons, Nat.mul_succ, Nat.add_comm]
      rfl

theorem length_appended_le (n : ℕ) : (appended n).length ≤ n := by
  have hle := List.length_filter_le (fun i => i % 16 ≠ 0) (List.range n)
  rwa [List.length_range] at hle

theorem dump_eq_encode_iff (pMsg : ℕ → UInt8) (dwLen : UInt32) :
    dump (dbgPrintMsg pMsg dwLen).1 = encode pMsg (List.range dwLen.toNat) ↔ dwLen = 0 := by
  rw [dump_dbgPrintMsg]
  constructor
  · intro h
    have hlen := congrArg List.length h
    have hle := length_appended_le (16 * ((dwLen.toNat - 1) / 16))
    rw [length_encode, length_encode, List.length_range] at hlen
    rw [← UInt32.toNat_inj, UInt32.toNat_zero]
    omega
  · rintro rfl
    rfl

/-! ## What the lines depend on -/

/-- The bytes at the multiples of 16 are never read. -/
theorem run_congr {m m' : ℕ → UInt8} {n : ℕ} (hn : n ≤ 0x100000000)
    (h : ∀ i < n, i % 16 ≠ 0 → m i = m' i) : run m n = run m' n := by
  induction n with
  | zero => rfl
  | succ n ih =>
      rw [run_succ, run_succ, ih (by omega) fun i hi => h i (by omega),
        pass_ofNat (by omega), pass_ofNat (by omega)]
      by_cases hdvd : n % 16 = 0
      · rw [if_pos hdvd, if_pos hdvd]
      · rw [if_neg hdvd, if_neg hdvd, h n (by omega) hdvd]

theorem dbgPrintMsg_congr {m m' : ℕ → UInt8} {dwLen : UInt32}
    (h : ∀ i < dwLen.toNat, i % 16 ≠ 0 → m i = m' i) :
    dbgPrintMsg m dwLen = dbgPrintMsg m' dwLen := by
  rw [dbgPrintMsg_eq, dbgPrintMsg_eq, run_congr dwLen.toNat_lt.le h]

/-- The first byte of a message is never printed. -/
theorem dbgPrintMsg_update_zero (pMsg : ℕ → UInt8) (b : UInt8) (dwLen : UInt32) :
    dbgPrintMsg (Function.update pMsg 0 b) dwLen = dbgPrintMsg pMsg dwLen := by
  apply dbgPrintMsg_congr
  intro i _ hi
  rw [Function.update_of_ne]
  rintro rfl
  exact hi rfl

/-- No message but an empty one is dumped as its encoding, and every message that is not empty
has another of the same length with the same lines. -/
theorem hex_dump_lossless_iff (pMsg : ℕ → UInt8) (dwLen : UInt32) :
    (dump (dbgPrintMsg pMsg dwLen).1 = encode pMsg (List.range dwLen.toNat) ↔ dwLen = 0) ∧
      ((∀ pMsg', (dbgPrintMsg pMsg' dwLen).1 = (dbgPrintMsg pMsg dwLen).1 →
        ∀ i < dwLen.toNat, pMsg' i = pMsg i) ↔ dwLen = 0) := by
  refine ⟨dump_eq_encode_iff pMsg dwLen, ?_⟩
  constructor
  · intro h
    by_contra hne
    have hpos : 0 < dwLen.toNat := by
      rw [← UInt32.toNat_inj, UInt32.toNat_zero] at hne
      omega
    have hsame := h (Function.update pMsg 0 (pMsg 0 + 1))
      (congrArg Prod.fst (dbgPrintMsg_update_zero pMsg _ dwLen)) 0 hpos
    rw [Function.update_self] at hsame
    exact absurd hsame (by simp)
  · rintro rfl pMsg' _ i hi
    exact absurd hi (Nat.not_lt_zero i)

/-- Seventeen bytes, of which the first and the last differ: the lines are the same, and they
hold neither byte. -/
theorem hex_dump_loses_bytes :
    dump (dbgPrintMsg (fun _ => 0xab) 17).1 ≠ encode (fun _ => 0xab) (List.range 17) ∧
      (dbgPrintMsg (fun i => if i % 16 = 0 then 0xcd else 0xab) 17).1 =
        (dbgPrintMsg (fun _ => 0xab) 17).1 := by
  have hlen := congrArg List.length (dump_dbgPrintMsg (fun _ => 0xab) 17)
  constructor
  · intro h
    rw [h, length_encode, length_encode] at hlen
    exact absurd hlen (by decide)
  · rw [dbgPrintMsg_congr fun i _ hi => if_neg hi]

end DbgMsg
