import LinuxDriver.DbgMsg
import LinuxDriver.StringReads
import Mathlib.Data.List.DropRight

/-!
# The line buffer of the hex dump

`DbgPrintMsg` appends at `ucBuf + dwCur` in one branch of its loop and resets `dwCur` in the
other. Before every pass `dwCur` is twice the number of bytes appended after the last flush, of
which there are at most fifteen.
-/

open CString

namespace DbgMsg

/-- A pass of the loop: the indices before it, its own and the variables that it finds. -/
structure Iteration where
  visited : List UInt32
  dwLp : UInt32
  locals : Locals

/-- The loop of `DbgPrintMsg` with a record of its passes. -/
def iterations (pMsg : ℕ → UInt8) (dwLen : UInt32) : List Iteration × Locals :=
  tlvloops (fun dwLp r => (r.1 ++ [⟨r.1.map Iteration.dwLp, dwLp, r.2⟩], pass pMsg dwLp r.2))
    dwLen 0 ([], start)

/-- The indices at which a byte was appended since the buffer was last printed. -/
def sinceFlush (visited : List UInt32) : List UInt32 :=
  visited.rtakeWhile fun dwLp => dwLp % 16 ≠ 0

/-- The buffer has room for one more byte and is a string, of the digits up to `dwCur`. -/
structure LineFits (it : Iteration) : Prop where
  twice : it.locals.dwCur.toNat = 2 * (sinceFlush it.visited).length
  filled : (text it.locals.ucBuf).length = it.locals.dwCur.toNat
  room : it.locals.dwCur.toNat + 3 ≤ ucBufSize
  size : it.locals.ucBuf.length = ucBufSize
  terminated : Terminated it.locals.ucBuf 0
  reads : ∀ i ∈ stringReads it.locals.ucBuf 0, i < ucBufSize

/-- The passes are those of `DbgPrintMsg`, one for each index from 0 on, and the buffer fits in
each of them. -/
structure BufferSafe (pMsg : ℕ → UInt8) (dwLen : UInt32) : Prop where
  ends : dbgPrintMsg pMsg dwLen = ((iterations pMsg dwLen).2.out ++ [bytes "\n", endMarker], 0)
  visits : (iterations pMsg dwLen).1.map (fun it => it.dwLp.toNat) = List.range dwLen.toNat
  before : ∀ earlier it later, (iterations pMsg dwLen).1 = earlier ++ it :: later →
    it.visited = earlier.map Iteration.dwLp
  fits : ∀ it ∈ (iterations pMsg dwLen).1, LineFits it

def iteration (pMsg : ℕ → UInt8) (n : ℕ) : Iteration :=
  ⟨(List.range n).map UInt32.ofNat, UInt32.ofNat n, run pMsg n⟩

theorem foldl_iterations (pMsg : ℕ → UInt8) (n : ℕ) :
    (List.range n).foldl (fun r i =>
        (r.1 ++ [⟨r.1.map Iteration.dwLp, UInt32.ofNat i, r.2⟩], pass pMsg (UInt32.ofNat i) r.2))
      (([], start) : List Iteration × Locals) =
    ((List.range n).map (iteration pMsg), run pMsg n) := by
  induction n with
  | zero => rfl
  | succ n ih =>
      rw [List.range_succ, List.foldl_append, ih, List.foldl_cons, List.foldl_nil, run_succ,
        List.map_append, List.map_map]
      rfl

theorem iterations_eq (pMsg : ℕ → UInt8) (dwLen : UInt32) :
    iterations pMsg dwLen =
      ((List.range dwLen.toNat).map (iteration pMsg), run pMsg dwLen.toNat) := by
  rw [← foldl_iterations, List.range_eq_range']
  exact tlvloops_eq _ (Nat.zero_add dwLen.toNat) _

theorem visited_of_split {pMsg : ℕ → UInt8} {n : ℕ} {earlier later : List Iteration}
    {it : Iteration} (h : (List.range n).map (iteration pMsg) = earlier ++ it :: later) :
    it.visited = earlier.map Iteration.dwLp := by
  have hlt : earlier.length < n := by
    have hlen := congrArg List.length h
    rw [List.length_map, List.length_range, List.length_append, List.length_cons] at hlen
    omega
  have hit : iteration pMsg earlier.length = it := by
    have hget := congrArg (fun l => l[earlier.length]?) h
    simpa [hlt] using hget
  have hearlier : (List.range earlier.length).map (iteration pMsg) = earlier := by
    have htake := congrArg (List.take earlier.length) h
    rwa [List.take_left, ← List.map_take, List.take_range, Nat.min_eq_left hlt.le] at htake
  rw [← hit, ← hearlier, List.length_map, List.length_range, List.map_map]
  rfl

theorem length_sinceFlush {n : ℕ} (hn : n ≤ 0x100000000) :
    (sinceFlush ((List.range n).map UInt32.ofNat)).length = (n - 1) % 16 := by
  induction n with
  | zero => rfl
  | succ n ih =>
      have hprev := ih (by omega)
      rw [sinceFlush] at hprev ⊢
      rw [List.range_succ, List.map_append, List.map_singleton, Nat.add_sub_cancel]
      by_cases hdvd : n % 16 = 0
      · rw [List.rtakeWhile_concat_neg _ _ _ (by simpa [ofNat_mod_eq_zero_iff hn] using hdvd), hdvd]
        rfl
      · rw [List.rtakeWhile_concat_pos _ _ _ (by simpa [ofNat_mod_eq_zero_iff hn] using hdvd),
          List.length_append, hprev, List.length_singleton]
        omega

theorem lineFits_iteration (pMsg : ℕ → UInt8) {n : ℕ} (hn : n ≤ 0x100000000) :
    LineFits (iteration pMsg n) := by
  obtain ⟨pending, h⟩ := collected_run pMsg hn
  have hlen := h.length
  have hsize : (run pMsg n).ucBuf.length = ucBufSize := by
    rw [h.buffer, List.length_append, List.length_replicate]
    simp only [ucBufSize]
    omega
  have hterm : Terminated (run pMsg n).ucBuf 0 := by
    rw [h.buffer, terminated_iff, List.drop_zero]
    apply List.mem_append_right
    rw [List.mem_replicate]
    refine ⟨?_, rfl⟩
    simp only [ucBufSize]
    omega
  refine ⟨?_, ?_, ?_, hsize, hterm, ?_⟩
  · change (run pMsg n).dwCur.toNat = _
    rw [iteration, length_sinceFlush hn, h.cur, h.length]
  · change (text (run pMsg n).ucBuf).length = (run pMsg n).dwCur.toNat
    rw [h.text_buffer, h.cur]
  · change (run pMsg n).dwCur.toNat + 3 ≤ ucBufSize
    rw [h.cur, h.length]
    simp only [ucBufSize]
    omega
  · rw [← hsize]
    exact stringReads_inside_iff.2 hterm

theorem dump_buffer_safe (pMsg : ℕ → UInt8) (dwLen : UInt32) : BufferSafe pMsg dwLen := by
  have heq := iterations_eq pMsg dwLen
  constructor
  · rw [heq, dbgPrintMsg_eq]
  · rw [heq, List.map_map]
    conv_rhs => rw [← List.map_id (List.range dwLen.toNat)]
    apply List.map_congr_left
    intro n hn
    have hlt := List.mem_range.1 hn
    have htotal := dwLen.toNat_lt
    exact toNat_ofNat_of_lt (by omega)
  · intro earlier it later hsplit
    rw [heq] at hsplit
    exact visited_of_split hsplit
  · rw [heq]
    intro it hit
    obtain ⟨n, hn, rfl⟩ := List.mem_map.1 hit
    have hlt := List.mem_range.1 hn
    have htotal := dwLen.toNat_lt
    exact lineFits_iteration pMsg (by omega)

end DbgMsg
