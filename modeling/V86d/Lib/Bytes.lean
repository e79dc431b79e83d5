import Mathlib.Algebra.Order.Group.Nat
import Mathlib.Data.List.Induction
import Mathlib.Logic.Function.Basic
import Mathlib.Tactic.Lemma

/-!
# Flat memories

A memory is a function from offsets to cells. The block operations of the C library are
pointwise definitions on such functions, so that a store outside an object simply changes
whatever lies there. After any number of stores a cell has the value last written to it.
Little-endian words of bytes come with their read-after-write lemmas.
-/

namespace V86d.Lib

section Blocks

variable {α : Type*}

/-- `memcpy(dst + d, src + s, n)`; both pointers are read before anything is written, so it is
`memmove` as well. -/
def memcpy (dst : ℕ → α) (d : ℕ) (src : ℕ → α) (s n : ℕ) : ℕ → α :=
  fun i => if d ≤ i ∧ i < d + n then src (s + (i - d)) else dst i

def memset (dst : ℕ → α) (d : ℕ) (v : α) (n : ℕ) : ℕ → α :=
  fun i => if d ≤ i ∧ i < d + n then v else dst i

lemma memcpy_of_mem {dst src : ℕ → α} {d s n i : ℕ} (hd : d ≤ i) (hi : i < d + n) :
    memcpy dst d src s n i = src (s + (i - d)) := if_pos ⟨hd, hi⟩

lemma memcpy_of_not_mem {dst src : ℕ → α} {d s n i : ℕ} (h : i < d ∨ d + n ≤ i) :
    memcpy dst d src s n i = dst i := if_neg (by omega)

lemma memset_of_mem {dst : ℕ → α} {v : α} {d n i : ℕ} (hd : d ≤ i) (hi : i < d + n) :
    memset dst d v n i = v := if_pos ⟨hd, hi⟩

lemma memset_of_not_mem {dst : ℕ → α} {v : α} {d n i : ℕ} (h : i < d ∨ d + n ≤ i) :
    memset dst d v n i = dst i := if_neg (by omega)

end Blocks

section Stores

variable {α β γ : Type*} [DecidableEq α] [DecidableEq γ]

/-- The memory after the stores `ws`, the first of them first. -/
def storeAll (m : α → β) (ws : List (α × β)) : α → β :=
  ws.foldl (fun m w => Function.update m w.1 w.2) m

/-- What the last of the stores to `a` has written. -/
def lastWritten (ws : List (α × β)) (a : α) : Option β :=
  (ws.reverse.find? fun w => w.1 = a).map Prod.snd

lemma storeAll_append (m : α → β) (ws ws' : List (α × β)) :
    storeAll m (ws ++ ws') = storeAll (storeAll m ws) ws' := List.foldl_append

lemma lastWritten_concat (ws : List (α × β)) (w : α × β) (a : α) :
    lastWritten (ws ++ [w]) a = if w.1 = a then some w.2 else lastWritten ws a := by
  unfold lastWritten
  rw [List.reverse_append, List.reverse_singleton, List.singleton_append]
  by_cases h : w.1 = a
  · rw [List.find?_cons_of_pos (by simpa using h), if_pos h, Option.map_some]
  · rw [List.find?_cons_of_neg (by simpa using h), if_neg h]

lemma lastWritten_eq_none {ws : List (α × β)} {a : α} (h : ∀ w ∈ ws, w.1 ≠ a) :
    lastWritten ws a = none := by
  have hfind : ws.reverse.find? (fun w => w.1 = a) = none := by
    apply List.find?_eq_none.mpr
    intro w hw
    simpa using h w (List.mem_reverse.mp hw)
  rw [lastWritten, hfind, Option.map_none]

/-- Stores to cells that are told apart all last. -/
lemma lastWritten_range {n : ℕ} {f : ℕ → α} (g : ℕ → β)
    (hf : ∀ j < n, ∀ k < n, f j = f k → j = k) {k : ℕ} (hk : k < n) :
    lastWritten ((List.range n).map fun j => (f j, g j)) (f k) = some (g k) := by
  induction n with
  | zero => omega
  | succ n ih =>
    rw [List.range_succ, List.map_append, List.map_singleton, lastWritten_concat]
    by_cases h : f n = f k
    · rw [if_pos h, hf n (Nat.lt_succ_self n) k hk h]
    · have hne : k ≠ n := fun he => h (by rw [he])
      rw [if_neg h]
      exact ih (fun i hi j hj => hf i (by omega) j (by omega)) (by omega)

theorem storeAll_apply (m : α → β) (ws : List (α × β)) (a : α) :
    storeAll m ws a = (lastWritten ws a).getD (m a) := by
  induction ws using List.reverseRecOn with
  | nil => rfl
  | append_singleton ws w ih =>
    rw [storeAll_append, lastWritten_concat]
    change Function.update (storeAll m ws) w.1 w.2 a = _
    by_cases h : w.1 = a
    · rw [if_pos h, ← h, Function.update_self, Option.getD_some]
    · rw [if_neg h, Function.update_of_ne (Ne.symm h), ih]

/-- Cells that are told apart may be renamed. -/
lemma lastWritten_map {f : α → γ} (hf : Function.Injective f) (ws : List (α × β)) (a : α) :
    lastWritten (ws.map (Prod.map f id)) (f a) = lastWritten ws a := by
  induction ws using List.reverseRecOn with
  | nil => rfl
  | append_singleton ws w ih =>
    rw [List.map_append, List.map_singleton, lastWritten_concat, lastWritten_concat, ih]
    exact if_congr hf.eq_iff rfl rfl

end Stores

section Strings

variable {α : Type*} [Zero α] [DecidableEq α]

/-- `strnlen(b + i, n)`: the number of nonzero cells from `i` on, at most `n`. -/
def strnlen (b : ℕ → α) (i : ℕ) : ℕ → ℕ
  | 0 => 0
  | n + 1 => if b i = 0 then 0 else strnlen b (i + 1) n + 1

/-- `strncpy(dst + d, src + s, n)`: the string, then zeros up to `n` cells; no terminator when
the string has `n` cells or more. -/
def strncpy (dst : ℕ → α) (d : ℕ) (src : ℕ → α) (s n : ℕ) : ℕ → α :=
  fun i => if d ≤ i ∧ i < d + n then
    (if i - d < strnlen src s n then src (s + (i - d)) else 0) else dst i

lemma strnlen_le (b : ℕ → α) (i n : ℕ) : strnlen b i n ≤ n := by
  induction n generalizing i with
  | zero => exact le_rfl
  | succ n ih =>
    rw [strnlen]
    split
    · omega
    · have := ih (i + 1)
      omega

lemma ne_zero_of_lt_strnlen {b : ℕ → α} {i n j : ℕ} (hj : j < strnlen b i n) : b (i + j) ≠ 0 := by
  induction n generalizing i j with
  | zero => simp [strnlen] at hj
  | succ n ih =>
    rw [strnlen] at hj
    split at hj
    · omega
    · next hb =>
      cases j with
      | zero => exact hb
      | succ j =>
        have h := ih (i := i + 1) (j := j) (by omega)
        rwa [show i + 1 + j = i + (j + 1) by omega] at h

lemma eq_zero_of_strnlen_lt {b : ℕ → α} {i n : ℕ} (h : strnlen b i n < n) :
    b (i + strnlen b i n) = 0 := by
  induction n generalizing i with
  | zero => omega
  | succ n ih =>
    rw [strnlen] at h ⊢
    split
    · next hb => simpa using hb
    · next hb =>
      rw [if_neg hb] at h
      have h' := ih (i := i + 1) (by omega)
      rwa [show i + 1 + strnlen b (i + 1) n = i + (strnlen b (i + 1) n + 1) by omega] at h'

lemma strnlen_eq {b : ℕ → α} {i n l : ℕ} (hl : l < n) (hz : b (i + l) = 0)
    (hne : ∀ j < l, b (i + j) ≠ 0) : strnlen b i n = l := by
  rcases Nat.lt_trichotomy (strnlen b i n) l with h | h | h
  · exact absurd (eq_zero_of_strnlen_lt (h.trans hl)) (hne _ h)
  · exact h
  · exact absurd hz (ne_zero_of_lt_strnlen h)

lemma strnlen_eq_limit {b : ℕ → α} {i n : ℕ} (hne : ∀ j < n, b (i + j) ≠ 0) :
    strnlen b i n = n := by
  rcases Nat.lt_or_ge (strnlen b i n) n with h | h
  · exact absurd (eq_zero_of_strnlen_lt h) (hne _ h)
  · exact le_antisymm (strnlen_le b i n) h

lemma strnlen_lt_iff {b : ℕ → α} {i n : ℕ} : strnlen b i n < n ↔ ∃ j < n, b (i + j) = 0 := by
  constructor
  · intro h
    exact ⟨strnlen b i n, h, eq_zero_of_strnlen_lt h⟩
  · rintro ⟨j, hj, hz⟩
    by_contra hge
    exact ne_zero_of_lt_strnlen (hj.trans_le (Nat.le_of_not_lt hge)) hz

lemma strnlen_congr {b b' : ℕ → α} {i n : ℕ} (h : ∀ j < n, b' (i + j) = b (i + j)) :
    strnlen b' i n = strnlen b i n := by
  induction n generalizing i with
  | zero => rfl
  | succ n ih =>
    have h0 : b' i = b i := h 0 (by omega)
    have hrest : strnlen b' (i + 1) n = strnlen b (i + 1) n := ih fun j hj => by
      rw [Nat.add_assoc, Nat.add_comm 1 j]
      exact h (j + 1) (by omega)
    rw [strnlen, strnlen, h0, hrest]

lemma strncpy_congr {b b' src : ℕ → α} {d s n i : ℕ} (h : b' i = b i) :
    strncpy b' d src s n i = strncpy b d src s n i := by
  unfold strncpy
  rw [h]

lemma strncpy_of_lt {dst src : ℕ → α} {d s n i : ℕ} (hi : i < strnlen src s n) :
    strncpy dst d src s n (d + i) = src (s + i) := by
  have hn := strnlen_le src s n
  rw [strncpy, if_pos (by omega), if_pos (by omega), Nat.add_sub_cancel_left]

lemma strncpy_of_ge {dst src : ℕ → α} {d s n i : ℕ} (hi : strnlen src s n ≤ i) (hn : i < n) :
    strncpy dst d src s n (d + i) = 0 := by
  rw [strncpy, if_pos (by omega), if_neg (by omega)]

lemma strncpy_of_not_mem {dst src : ℕ → α} {d s n i : ℕ} (h : i < d ∨ d + n ≤ i) :
    strncpy dst d src s n i = dst i := if_neg (by omega)

lemma strnlen_strncpy (dst src : ℕ → α) (d s n : ℕ) :
    strnlen (strncpy dst d src s n) d n = strnlen src s n := by
  rcases Nat.lt_or_ge (strnlen src s n) n with h | h
  · refine strnlen_eq h (strncpy_of_ge le_rfl h) (fun j hj => ?_)
    rw [strncpy_of_lt hj]
    exact ne_zero_of_lt_strnlen hj
  · have he : strnlen src s n = n := le_antisymm (strnlen_le src s n) h
    rw [he]
    refine strnlen_eq_limit (fun j hj => ?_)
    have hj' : j < strnlen src s n := by omega
    rw [strncpy_of_lt hj']
    exact ne_zero_of_lt_strnlen hj'

end Strings

section LittleEndian

def get16 (b : ℕ → BitVec 8) (i : ℕ) : BitVec 16 :=
  BitVec.ofNat 16 ((b i).toNat + 256 * (b (i + 1)).toNat)

def get32 (b : ℕ → BitVec 8) (i : ℕ) : BitVec 32 :=
  BitVec.ofNat 32 ((b i).toNat + 256 * (b (i + 1)).toNat + 65536 * (b (i + 2)).toNat +
    16777216 * (b (i + 3)).toNat)

/-- Byte `k` of a word, the least significant first. -/
def byteOf {w : ℕ} (v : BitVec w) (k : ℕ) : BitVec 8 := BitVec.ofNat 8 (v.toNat / 256 ^ k)

/-- Stores the low `n` bytes of `v` at offset `i`. -/
def putBytes {w : ℕ} (n : ℕ) (b : ℕ → BitVec 8) (i : ℕ) (v : BitVec w) : ℕ → BitVec 8 :=
  fun j => if i ≤ j ∧ j < i + n then byteOf v (j - i) else b j

def put16 (b : ℕ → BitVec 8) (i : ℕ) (v : BitVec 16) : ℕ → BitVec 8 := putBytes 2 b i v

def put32 (b : ℕ → BitVec 8) (i : ℕ) (v : BitVec 32) : ℕ → BitVec 8 := putBytes 4 b i v

lemma putBytes_of_mem {w n : ℕ} {b : ℕ → BitVec 8} {i j : ℕ} {v : BitVec w} (hi : i ≤ j)
    (hj : j < i + n) : putBytes n b i v j = byteOf v (j - i) := if_pos ⟨hi, hj⟩

lemma putBytes_of_not_mem {w n : ℕ} {b : ℕ → BitVec 8} {i j : ℕ} {v : BitVec w}
    (h : j < i ∨ i + n ≤ j) : putBytes n b i v j = b j := if_neg (by omega)

lemma put16_of_not_mem {b : ℕ → BitVec 8} {i j : ℕ} {v : BitVec 16} (h : j < i ∨ i + 2 ≤ j) :
    put16 b i v j = b j := putBytes_of_not_mem h

lemma put32_of_not_mem {b : ℕ → BitVec 8} {i j : ℕ} {v : BitVec 32} (h : j < i ∨ i + 4 ≤ j) :
    put32 b i v j = b j := putBytes_of_not_mem h

lemma put32_congr {b b' : ℕ → BitVec 8} {i j : ℕ} (v : BitVec 32) (h : b' j = b j) :
    put32 b' i v j = put32 b i v j := by
  unfold put32 putBytes
  rw [h]

lemma byteOf_toNat {w : ℕ} (v : BitVec w) (k : ℕ) :
    (byteOf v k).toNat = v.toNat / 256 ^ k % 256 := by simp [byteOf]

@[simp] lemma get16_put16 (b : ℕ → BitVec 8) (i : ℕ) (v : BitVec 16) :
    get16 (put16 b i v) i = v := by
  apply BitVec.eq_of_toNat_eq
  have h0 : (put16 b i v i).toNat = v.toNat % 256 := by
    rw [put16, putBytes_of_mem le_rfl (by omega), byteOf_toNat]
    simp
  have h1 : (put16 b i v (i + 1)).toNat = v.toNat / 256 % 256 := by
    rw [put16, putBytes_of_mem (by omega) (by omega), byteOf_toNat]
    simp
  rw [get16, BitVec.toNat_ofNat, h0, h1]
  have := v.isLt
  omega

@[simp] lemma get32_put32 (b : ℕ → BitVec 8) (i : ℕ) (v : BitVec 32) :
    get32 (put32 b i v) i = v := by
  apply BitVec.eq_of_toNat_eq
  have h0 : (put32 b i v i).toNat = v.toNat % 256 := by
    rw [put32, putBytes_of_mem le_rfl (by omega), byteOf_toNat]
    simp
  have h1 : (put32 b i v (i + 1)).toNat = v.toNat / 256 % 256 := by
    rw [put32, putBytes_of_mem (by omega) (by omega), byteOf_toNat]
    simp
  have h2 : (put32 b i v (i + 2)).toNat = v.toNat / 65536 % 256 := by
    rw [put32, putBytes_of_mem (by omega) (by omega), byteOf_toNat]
    simp
  have h3 : (put32 b i v (i + 3)).toNat = v.toNat / 16777216 % 256 := by
    rw [put32, putBytes_of_mem (by omega) (by omega), byteOf_toNat]
    simp
  rw [get32, BitVec.toNat_ofNat, h0, h1, h2, h3]
  have := v.isLt
  omega

lemma putBytes_eq_self {w n : ℕ} {b : ℕ → BitVec 8} {i : ℕ} {v : BitVec w}
    (h : ∀ k < n, byteOf v k = b (i + k)) : putBytes n b i v = b := by
  funext j
  by_cases hj : i ≤ j ∧ j < i + n
  · rw [putBytes_of_mem hj.1 hj.2, h (j - i) (by omega), Nat.add_sub_cancel' hj.1]
  · exact putBytes_of_not_mem (by omega)

lemma byteOf_get16 (b : ℕ → BitVec 8) (i : ℕ) {k : ℕ} (hk : k < 2) :
    byteOf (get16 b i) k = b (i + k) := by
  have h0 := (b i).isLt
  have h1 := (b (i + 1)).isLt
  apply BitVec.eq_of_toNat_eq
  rw [byteOf_toNat, get16, BitVec.toNat_ofNat]
  match k, hk with
  | 0, _ =>
    change _ = (b i).toNat
    omega
  | 1, _ => omega

lemma byteOf_get32 (b : ℕ → BitVec 8) (i : ℕ) {k : ℕ} (hk : k < 4) :
    byteOf (get32 b i) k = b (i + k) := by
  have h0 := (b i).isLt
  have h1 := (b (i + 1)).isLt
  have h2 := (b (i + 2)).isLt
  have h3 := (b (i + 3)).isLt
  apply BitVec.eq_of_toNat_eq
  rw [byteOf_toNat, get32, BitVec.toNat_ofNat]
  match k, hk with
  | 0, _ =>
    change _ = (b i).toNat
    omega
  | 1, _ => omega
  | 2, _ => omega
  | 3, _ => omega

lemma put16_get16 (b : ℕ → BitVec 8) (i : ℕ) : put16 b i (get16 b i) = b :=
  putBytes_eq_self fun _ hk => byteOf_get16 b i hk

lemma put32_get32 (b : ℕ → BitVec 8) (i : ℕ) : put32 b i (get32 b i) = b :=
  putBytes_eq_self fun _ hk => byteOf_get32 b i hk

lemma get16_eq_ffff_iff {b : ℕ → BitVec 8} {i : ℕ} :
    get16 b i = 0xffff ↔ b i = 0xff ∧ b (i + 1) = 0xff := by
  constructor
  · intro h
    have h0 := byteOf_get16 b i (show 0 < 2 by decide)
    have h1 := byteOf_get16 b i (show 1 < 2 by decide)
    rw [h] at h0 h1
    exact ⟨h0.symm, h1.symm⟩
  · rintro ⟨h0, h1⟩
    rw [get16, h0, h1]
    rfl

/-- The highest byte of a number below `2 ^ 24`. -/
lemma last_byte_of_get32_lt {b : ℕ → BitVec 8} {i : ℕ} (h : (get32 b i).toNat < 2 ^ 24) :
    b (i + 3) = 0 := by
  have h0 := (b i).isLt
  have h1 := (b (i + 1)).isLt
  have h2 := (b (i + 2)).isLt
  have h3 := (b (i + 3)).isLt
  rw [get32, BitVec.toNat_ofNat] at h
  apply BitVec.eq_of_toNat_eq
  change (b (i + 3)).toNat = 0
  omega

lemma get16_congr {b b' : ℕ → BitVec 8} {i : ℕ} (h : ∀ j, i ≤ j → j < i + 2 → b' j = b j) :
    get16 b' i = get16 b i := by
  rw [get16, get16, h i le_rfl (by omega), h (i + 1) (by omega) (by omega)]

lemma get16_eq_iff {b b' : ℕ → BitVec 8} {i : ℕ} :
    get16 b' i = get16 b i ↔ ∀ j < 2, b' (i + j) = b (i + j) := by
  constructor
  · intro h j hj
    rw [← byteOf_get16 b' i hj, h, byteOf_get16 b i hj]
  · intro h
    apply get16_congr
    intro j hij hj
    have hbyte := h (j - i) (by omega)
    rwa [Nat.add_sub_cancel' hij] at hbyte

/-- A word that is stored leaves another word as it is just when the bytes that it puts there are
there already. -/
lemma get16_put16_eq_iff {b : ℕ → BitVec 8} {a i : ℕ} {v : BitVec 16} :
    get16 (put16 b a v) i = get16 b i ↔
      ∀ k < 2, ∀ j < 2, a + k = i + j → b (i + j) = byteOf v k := by
  rw [get16_eq_iff]
  constructor
  · intro h k hk j hj hkj
    rw [← h j hj, put16, putBytes_of_mem (by omega) (by omega), ← hkj, Nat.add_sub_cancel_left]
  · intro h j hj
    by_cases hmem : a ≤ i + j ∧ i + j < a + 2
    · rw [put16, putBytes_of_mem hmem.1 hmem.2]
      exact (h (i + j - a) (by omega) j hj (by omega)).symm
    · exact put16_of_not_mem (by omega)

lemma get32_congr {b b' : ℕ → BitVec 8} {i : ℕ} (h : ∀ j, i ≤ j → j < i + 4 → b' j = b j) :
    get32 b' i = get32 b i := by
  rw [get32, get32, h i le_rfl (by omega), h (i + 1) (by omega) (by omega),
    h (i + 2) (by omega) (by omega), h (i + 3) (by omega) (by omega)]

end LittleEndian

end V86d.Lib
