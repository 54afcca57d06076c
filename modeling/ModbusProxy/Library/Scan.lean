import Mathlib.Data.List.DropRight
import Mathlib.Logic.Function.Iterate
import ModbusProxy.Library.Loop

/-!
# Scanning bytes for text

Loops that look for the end of a text in a buffer with an index of eight bits. A byte of a
text is an ASCII character other than NUL. The loop upwards stops behind the text
(`loop_up`). The loop downwards skips NULs and stops at a byte above `0x7F`, or below a
bound (`loop_down`); with zero as the bound it has no end but such a byte, since the index
wraps (`loop_cyclic_iff`). Both count characters in a variable that is not theirs and
record the places that they read.
-/

namespace ModbusProxy.Scan

open Loop

/-- An ASCII character other than NUL. -/
def isText (b : UInt8) : Bool := b ≠ 0 && b ≤ 0x7F

/-- The longest text that a string of bytes begins with. -/
def text (bs : List UInt8) : List UInt8 := bs.takeWhile isText

/-- The state of a scan. -/
structure State (L : Type) where
  /-- The index. -/
  index : UInt8
  /-- The counter. -/
  len : L
  /-- Where the buffer was read. -/
  reads : List ℕ

variable {L : Type} [Add L] [OfNat L 1] (byte : ℕ → UInt8)

/-- The state after the buffer was read at a place. -/
def State.read (s : State L) (k : ℕ) : State L := { s with reads := s.reads ++ [k] }

theorem State.mem_read {M : Type} {s : State M} {a k : ℕ} : k ∈ (s.read a).reads ↔ k ∈ s.reads ∨ k = a := by
  rw [State.read, List.mem_append, List.mem_singleton]

/-- A counter incremented `n` times. -/
def bump (n : ℕ) (len : L) : L := (fun l => l + 1)^[n] len

theorem bump_succ (n : ℕ) (len : L) : bump (n + 1) len = bump n (len + 1) := rfl

theorem bump_add (m n : ℕ) (len : L) : bump (m + n) len = bump n (bump m len) := by
  rw [bump, Nat.add_comm, Function.iterate_add_apply]
  rfl

theorem bump_uint16 (n : ℕ) (len : UInt16) : bump n len = len + UInt16.ofNat n := by
  induction n generalizing len with
  | zero => simp [bump]
  | succ n ih => rw [bump_succ, ih, UInt16.add_assoc, UInt16.add_comm 1, ← UInt16.ofNat_one, ← UInt16.ofNat_add]

theorem bump_uint8 (n : ℕ) (len : UInt8) : bump n len = len + UInt8.ofNat n := by
  induction n generalizing len with
  | zero => simp [bump]
  | succ n ih => rw [bump_succ, ih, UInt8.add_assoc, UInt8.add_comm 1, ← UInt8.ofNat_one, ← UInt8.ofNat_add]

/-! ### Upwards -/

/-- An iteration of `for (x = …; x < bound; x++)` that reads the byte at `base + x`. -/
def upBody (base bound : ℕ) (s : State L) : Option (Iteration (State L)) :=
  if s.index.toNat < bound then
    let s' := s.read (base + s.index.toNat)
    if 0x7F < byte (base + s.index.toNat) then some (.leave s')
    else if byte (base + s.index.toNat) = 0 then some (.leave s')
    else some (.again { s' with index := s.index + 1, len := s.len + 1 })
  else some (.leave s)

/-- What an iteration of the scan upwards does: a character is counted, and the scan ends
at any other byte. -/
theorem upBody_eq {base bound : ℕ} {s : State L} (h : s.index.toNat < bound) :
    (isText (byte (base + s.index.toNat)) = true ∧ upBody byte base bound s =
        some (.again { s.read (base + s.index.toNat) with index := s.index + 1, len := s.len + 1 })) ∨
      ¬ isText (byte (base + s.index.toNat)) = true ∧
        upBody byte base bound s = some (.leave (s.read (base + s.index.toNat))) := by
  simp only [upBody, if_pos h, isText, Bool.and_eq_true, decide_eq_true_eq]
  by_cases hhigh : 0x7F < byte (base + s.index.toNat)
  · exact .inr ⟨fun htext => absurd hhigh (UInt8.not_lt.mpr htext.2), if_pos hhigh⟩
  · rw [if_neg hhigh]
    by_cases hzero : byte (base + s.index.toNat) = 0
    · exact .inr ⟨fun htext => htext.1 hzero, if_pos hzero⟩
    · exact .inl ⟨⟨hzero, UInt8.not_lt.mp hhigh⟩, if_neg hzero⟩

/-- **The scan upwards** counts the bytes of the text and reads no byte outside its range. -/
theorem loop_up (base : ℕ) {bound : ℕ} (hbound : bound ≤ 255) (s : State L) {d fuel : ℕ}
    (hd : s.index.toNat + d = bound) (hfuel : d < fuel) :
    ∃ s', loop (upBody byte base bound) fuel s = some s' ∧
      s'.len = bump (text ((List.range d).map fun k => byte (base + s.index.toNat + k))).length s.len ∧
      ∀ k ∈ s'.reads, k ∈ s.reads ∨ base + s.index.toNat ≤ k ∧ k < base + bound := by
  induction d generalizing fuel s with
  | zero =>
    obtain ⟨fuel, rfl⟩ := Nat.exists_eq_succ_of_ne_zero (Nat.pos_iff_ne_zero.mp hfuel)
    refine ⟨s, loop_leave (by rw [upBody, if_neg (by omega)]) fuel, rfl, fun k hk => .inl hk⟩
  | succ d ih =>
    obtain ⟨fuel, rfl⟩ := Nat.exists_eq_succ_of_ne_zero (Nat.pos_iff_ne_zero.mp (Nat.zero_lt_of_lt hfuel))
    have hlt : s.index.toNat < bound := by omega
    have hread {k : ℕ} (hk : k ∈ (s.read (base + s.index.toNat)).reads) :
        k ∈ s.reads ∨ base + s.index.toNat ≤ k ∧ k < base + bound := by
      rcases State.mem_read.mp hk with h | rfl
      · exact .inl h
      · exact .inr ⟨le_rfl, by omega⟩
    have hrange : ((List.range (d + 1)).map fun k => byte (base + s.index.toNat + k)) =
        byte (base + s.index.toNat) :: (List.range d).map fun k => byte (base + (s.index.toNat + 1) + k) := by
      rw [List.range_succ_eq_map, List.map_cons, List.map_map]
      simp only [Nat.add_zero, List.cons.injEq, true_and]
      exact List.map_congr_left fun k _ => congrArg byte (by simp only [Nat.succ_eq_add_one]; omega)
    rw [hrange]
    rcases upBody_eq byte hlt with ⟨htext, hbody⟩ | ⟨htext, hbody⟩
    · have hindex : (s.index + 1).toNat = s.index.toNat + 1 := by
        rw [UInt8.toNat_add, UInt8.toNat_one]
        omega
      obtain ⟨s', hloop, hlen, hreads⟩ := ih
        { s.read (base + s.index.toNat) with index := s.index + 1, len := s.len + 1 }
        (by rw [hindex]; omega) (Nat.lt_of_succ_lt_succ hfuel)
      refine ⟨s', by rw [loop_again hbody]; exact hloop, ?_, fun k hk => ?_⟩
      · rw [hlen, text, text, List.takeWhile_cons_of_pos htext, List.length_cons, bump_succ]
        simp only [hindex]
      · rcases hreads k hk with h | h
        · exact hread h
        · simp only [hindex] at h
          exact .inr ⟨by omega, h.2⟩
    · refine ⟨s.read (base + s.index.toNat), loop_leave hbody fuel, ?_, fun k hk => hread hk⟩
      rw [text, List.takeWhile_cons_of_neg htext]
      rfl

/-! ### Downwards -/

/-- An iteration of `for (x = …; x >= low; x--)` that reads the byte at `x`. -/
def downBody (low : ℕ) (s : State L) : Option (Iteration (State L)) :=
  if low ≤ s.index.toNat then
    let s' := s.read s.index.toNat
    if 0x7F < byte s.index.toNat then some (.leave s')
    else if byte s.index.toNat = 0 then some (.again { s' with index := s.index - 1 })
    else some (.again { s' with index := s.index - 1, len := s.len + 1 })
  else some (.leave s)

/-- The characters that the scan downwards counts, of the bytes in the order in which it
reads them. -/
def counted (bs : List UInt8) : List UInt8 := (bs.takeWhile fun b => b ≤ 0x7F).filter fun b => b ≠ 0

theorem counted_cons_high {b : UInt8} (hb : 0x7F < b) (bs : List UInt8) : counted (b :: bs) = [] := by
  rw [counted, List.takeWhile_cons_of_neg (by simpa using hb), List.filter_nil]

theorem counted_cons_zero (bs : List UInt8) : counted (0 :: bs) = counted bs := by
  rw [counted, List.takeWhile_cons_of_pos (by decide), List.filter_cons_of_neg (by decide), counted]

theorem counted_cons_text {b : UInt8} (hlow : ¬ 0x7F < b) (hb : b ≠ 0) (bs : List UInt8) :
    counted (b :: bs) = b :: counted bs := by
  rw [counted, List.takeWhile_cons_of_pos (by simpa using hlow), List.filter_cons_of_pos (by simpa using hb), counted]

/-- The first byte counts for itself unless it ends the scan. -/
theorem counted_cons {b : UInt8} (hlow : ¬ 0x7F < b) (bs : List UInt8) : counted (b :: bs) = counted [b] ++ counted bs := by
  by_cases hb : b = 0
  · rw [hb, counted_cons_zero, counted_cons_zero]
    rfl
  · rw [counted_cons_text hlow hb, counted_cons_text hlow hb]
    rfl

theorem counted_append {t : List UInt8} (ht : ∀ b ∈ t, isText b = true) (bs : List UInt8) :
    counted (t ++ bs) = t ++ counted bs := by
  induction t with
  | nil => rfl
  | cons b t ih =>
    have hb := ht b List.mem_cons_self
    simp only [isText, Bool.and_eq_true, decide_eq_true_eq] at hb
    rw [List.cons_append, counted_cons_text (UInt8.not_lt.mpr hb.2) hb.1,
      ih fun c hc => ht c (List.mem_cons_of_mem b hc), List.cons_append]

theorem counted_dropWhile_zero (bs : List UInt8) : counted (bs.dropWhile fun b => b = 0) = counted bs := by
  induction bs with
  | nil => rfl
  | cons b bs ih =>
    by_cases hb : b = 0
    · rw [List.dropWhile_cons_of_pos (by simpa using hb), ih, hb, counted_cons_zero]
    · rw [List.dropWhile_cons_of_neg (by simpa using hb)]

theorem counted_eq_nil_iff {bs : List UInt8} :
    counted bs = [] ↔ ∀ b ∈ bs.takeWhile fun b => b ≤ 0x7F, b = 0 := by
  simp [counted, List.filter_eq_nil_iff]

/-- Past leading NULs, the scan downwards counts a text and what it finds beyond it. -/
theorem counted_eq (bs : List UInt8) :
    counted bs = text (bs.dropWhile fun b => b = 0) ++ counted ((bs.dropWhile fun b => b = 0).dropWhile isText) := by
  have htext : ∀ b ∈ text (bs.dropWhile fun b => b = 0), isText b = true := fun b hb => List.mem_takeWhile_imp hb
  rw [← counted_append htext, text, List.takeWhile_append_dropWhile, counted_dropWhile_zero]

/-- What an iteration of the scan downwards does: the byte at the index is read, and the
scan ends there if it is above `0x7F`. -/
theorem downBody_eq {low : ℕ} {s : State L} (hlow : low ≤ s.index.toNat) :
    (0x7F < byte s.index.toNat ∧ downBody byte low s = some (.leave (s.read s.index.toNat))) ∨
      ¬ 0x7F < byte s.index.toNat ∧ downBody byte low s =
        some (.again { s.read s.index.toNat with
          index := s.index - 1, len := bump (counted [byte s.index.toNat]).length s.len }) := by
  rw [downBody, if_pos hlow]
  by_cases hhigh : 0x7F < byte s.index.toNat
  · exact .inl ⟨hhigh, if_pos hhigh⟩
  · refine .inr ⟨hhigh, ?_⟩
    simp only
    rw [if_neg hhigh]
    by_cases hzero : byte s.index.toNat = 0
    · rw [if_pos hzero, hzero]
      rfl
    · rw [if_neg hzero, counted_cons_text hhigh hzero]
      rfl

/-- **The scan downwards** counts characters past every NUL, down to a byte above `0x7F`
or the bound. -/
theorem loop_down {low : ℕ} (hlow : 0 < low) (s : State L) {d fuel : ℕ} (hd : s.index.toNat + 1 = low + d)
    (hfuel : d < fuel) :
    ∃ s', loop (downBody byte low) fuel s = some s' ∧
      s'.len = bump (counted ((List.range d).map fun k => byte (s.index.toNat - k))).length s.len ∧
      ∀ k ∈ s'.reads, k ∈ s.reads ∨ k < 256 := by
  induction d generalizing fuel s with
  | zero =>
    obtain ⟨fuel, rfl⟩ := Nat.exists_eq_succ_of_ne_zero (Nat.pos_iff_ne_zero.mp hfuel)
    refine ⟨s, loop_leave (by rw [downBody, if_neg (by omega)]) fuel, rfl, fun k hk => .inl hk⟩
  | succ d ih =>
    obtain ⟨fuel, rfl⟩ := Nat.exists_eq_succ_of_ne_zero (Nat.pos_iff_ne_zero.mp (Nat.zero_lt_of_lt hfuel))
    have hread {k : ℕ} (hk : k ∈ (s.read s.index.toNat).reads) : k ∈ s.reads ∨ k < 256 := by
      rcases State.mem_read.mp hk with h | rfl
      · exact .inl h
      · exact .inr s.index.toNat_lt
    have hrange : ((List.range (d + 1)).map fun k => byte (s.index.toNat - k)) =
        byte s.index.toNat :: (List.range d).map fun k => byte (s.index.toNat - 1 - k) := by
      rw [List.range_succ_eq_map, List.map_cons, List.map_map]
      simp only [Nat.sub_zero, List.cons.injEq, true_and]
      exact List.map_congr_left fun k _ => congrArg byte (by simp only [Nat.succ_eq_add_one]; omega)
    rw [hrange]
    rcases downBody_eq byte (show low ≤ s.index.toNat by omega) with ⟨hhigh, hbody⟩ | ⟨hhigh, hbody⟩
    · refine ⟨s.read s.index.toNat, loop_leave hbody fuel, ?_, fun k hk => hread hk⟩
      rw [counted_cons_high hhigh]
      rfl
    · have hindex : (s.index - 1).toNat = s.index.toNat - 1 := by
        rw [UInt8.toNat_sub_of_le _ _ (by rw [UInt8.le_iff_toNat_le, UInt8.toNat_one]; omega), UInt8.toNat_one]
      obtain ⟨s', hloop, hlen, hreads⟩ := ih
        { s.read s.index.toNat with
          index := s.index - 1, len := bump (counted [byte s.index.toNat]).length s.len }
        (by rw [hindex]; omega) (Nat.lt_of_succ_lt_succ hfuel)
      refine ⟨s', by rw [loop_again hbody]; exact hloop, ?_, fun k hk => (hreads k hk).elim hread .inr⟩
      rw [hlen, counted_cons hhigh ((List.range d).map _), List.length_append, bump_add]
      simp only [hindex]

/-- The scan reads the byte at which it begins, and forgets no read. -/
theorem mem_reads_of_loop_down {low fuel : ℕ} {s s' : State L} (h : loop (downBody byte low) fuel s = some s')
    {k : ℕ} (hk : k ∈ s.reads ∨ low ≤ s.index.toNat ∧ k = s.index.toNat) : k ∈ s'.reads := by
  induction fuel generalizing s with
  | zero => cases h
  | succ fuel ih =>
    by_cases hlow : low ≤ s.index.toNat
    · have hread : k ∈ (s.read s.index.toNat).reads := State.mem_read.mpr (hk.imp_right And.right)
      rcases downBody_eq byte hlow with ⟨-, hbody⟩ | ⟨-, hbody⟩
      · rw [loop_leave hbody, Option.some.injEq] at h
        rw [← h]
        exact hread
      · rw [loop_again hbody] at h
        exact ih h (.inl hread)
    · rw [loop_leave (by rw [downBody, if_neg hlow]), Option.some.injEq] at h
      rw [← h]
      rcases hk with hk | ⟨hlow', -⟩
      · exact hk
      · exact absurd hlow' hlow

/-- With zero as the bound the condition `x >= 0` never fails: the scan ends exactly if
one of the 256 bytes that the index can name is above `0x7F`. -/
theorem loop_cyclic_iff (s : State L) :
    (∃ fuel s', loop (downBody byte 0) fuel s = some s') ↔ ∃ k : UInt8, 0x7F < byte k.toNat := by
  constructor
  · rintro ⟨fuel, s', hloop⟩
    by_contra hnone
    induction fuel generalizing s with
    | zero => cases hloop
    | succ fuel ih =>
      rcases downBody_eq byte (Nat.zero_le s.index.toNat) with ⟨hhigh, -⟩ | ⟨-, hbody⟩
      · exact hnone ⟨s.index, hhigh⟩
      · rw [loop_again hbody] at hloop
        exact ih _ hloop
  · rintro ⟨k, hk⟩
    -- by induction on the distance from the index down to `k`, around the wrap
    induction hd : (s.index - k).toNat generalizing s with
    | zero =>
      have hindex : s.index = k := by
        have hsub : s.index - k = 0 := UInt8.toNat_inj.mp hd
        rw [← UInt8.sub_add_cancel s.index k, hsub, UInt8.zero_add]
      rcases downBody_eq byte (Nat.zero_le s.index.toNat) with ⟨-, hbody⟩ | ⟨hhigh, -⟩
      · exact ⟨1, _, loop_leave hbody 0⟩
      · exact absurd (hindex ▸ hk) hhigh
    | succ d ih =>
      rcases downBody_eq byte (Nat.zero_le s.index.toNat) with ⟨-, hbody⟩ | ⟨-, hbody⟩
      · exact ⟨1, _, loop_leave hbody 0⟩
      · have hstep : (s.index - 1 - k).toNat = d := by
          have hcomm : s.index - 1 - k = s.index - k - 1 := by
            rw [UInt8.sub_eq_add_neg, UInt8.sub_eq_add_neg, UInt8.sub_eq_add_neg (s.index), UInt8.sub_eq_add_neg,
              UInt8.add_assoc, UInt8.add_comm (-1), ← UInt8.add_assoc]
          rw [hcomm, UInt8.toNat_sub_of_le _ _ (by rw [UInt8.le_iff_toNat_le, hd, UInt8.toNat_one]; omega), hd]
          rfl
        obtain ⟨fuel, s', hloop⟩ := ih
          { s.read s.index.toNat with
            index := s.index - 1, len := bump (counted [byte s.index.toNat]).length s.len } hstep
        exact ⟨fuel + 1, s', by rw [loop_again hbody]; exact hloop⟩

end ModbusProxy.Scan
