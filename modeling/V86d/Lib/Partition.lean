import Mathlib.Algebra.BigOperators.Group.List.Basic
import Mathlib.Algebra.GroupWithZero.Nat
import Mathlib.Algebra.Order.Group.Nat
import Mathlib.Data.List.Chain
import Mathlib.Data.Option.Basic

/-!
# First-fit partitions of a range

A range of addresses is cut into segments that are used or free. Segments carry no address:
the address of a segment is the start of the range plus the sizes before it. `firstFit` splits
the first free segment that is strictly larger than the request, `release` frees a segment and
merges it with its free neighbours.
-/

namespace V86d.Lib

structure Seg where
  size : ℕ
  free : Bool
deriving DecidableEq, Repr

/-- The number of addresses the segments cover. -/
def total (l : List Seg) : ℕ := (l.map Seg.size).sum

@[simp] lemma total_nil : total [] = 0 := rfl

@[simp] lemma total_cons (s : Seg) (l : List Seg) : total (s :: l) = s.size + total l := by
  simp [total]

@[simp] lemma total_append (l₁ l₂ : List Seg) : total (l₁ ++ l₂) = total l₁ + total l₂ := by
  simp [total]

/-- The size of the used segment that starts at `a`, the first segment being at `base`. -/
def usedAt : ℕ → List Seg → ℕ → Option ℕ
  | _, [], _ => none
  | base, s :: l, a =>
    if a = base ∧ s.free = false then some s.size else usedAt (base + s.size) l a

/-- Neighbours that need no merging. -/
def Apart (s t : Seg) : Prop := ¬(s.free = true ∧ t.free = true)

/-- Every segment is a positive multiple of the grain, the segments cover the range, no two
neighbours are free and the last segment is free. -/
structure IsPartition (grain size : ℕ) (l : List Seg) : Prop where
  pos : ∀ s ∈ l, 0 < s.size
  dvd : ∀ s ∈ l, grain ∣ s.size
  total_eq : total l = size
  coalesced : l.IsChain Apart
  last_free : ∀ s ∈ l.getLast?, s.free = true

/-- Splits the first free segment of more than `n` addresses. -/
def firstFit (n : ℕ) : ℕ → List Seg → Option (ℕ × List Seg)
  | _, [] => none
  | base, s :: l =>
    if s.free = true ∧ n < s.size then some (base, ⟨n, false⟩ :: ⟨s.size - n, true⟩ :: l)
    else (firstFit n (base + s.size) l).map (fun p => (p.1, s :: p.2))

/-- Merges the segments `i` and `i + 1` when both are free. -/
def mergeAt : ℕ → List Seg → List Seg
  | 0, s :: t :: l =>
    if s.free = true ∧ t.free = true then ⟨s.size + t.size, true⟩ :: l else s :: t :: l
  | i + 1, s :: l => s :: mergeAt i l
  | _, l => l

/-- Marks segment `i` free. -/
def freeAt : ℕ → List Seg → List Seg
  | 0, s :: l => ⟨s.size, true⟩ :: l
  | i + 1, s :: l => s :: freeAt i l
  | _, [] => []

/-- Frees segment `i` and merges it with the segment after it, then with the one before it. -/
def release (i : ℕ) (l : List Seg) : List Seg :=
  if i = 0 then mergeAt 0 (freeAt 0 l) else mergeAt (i - 1) (mergeAt i (freeAt i l))

lemma usedAt_append (base : ℕ) (l₁ l₂ : List Seg) (a : ℕ) :
    usedAt base (l₁ ++ l₂) a = (usedAt base l₁ a).or (usedAt (base + total l₁) l₂ a) := by
  induction l₁ generalizing base with
  | nil => simp [usedAt]
  | cons s l ih =>
    rw [List.cons_append, usedAt, usedAt]
    split
    · rfl
    · rw [ih, total_cons, Nat.add_assoc]

lemma usedAt_of_lt {base a : ℕ} (l : List Seg) (h : a < base) : usedAt base l a = none := by
  induction l generalizing base with
  | nil => rfl
  | cons s l ih =>
    rw [usedAt, if_neg (by omega)]
    exact ih (by omega)

lemma usedAt_of_ge {base a : ℕ} {l : List Seg} (hpos : ∀ s ∈ l, 0 < s.size)
    (h : base + total l ≤ a) : usedAt base l a = none := by
  induction l generalizing base with
  | nil => rfl
  | cons s l ih =>
    have hs := hpos s List.mem_cons_self
    rw [total_cons] at h
    rw [usedAt, if_neg (by omega)]
    exact ih (fun t ht => hpos t (List.mem_cons_of_mem s ht)) (by omega)

lemma usedAt_eq_some {base a n : ℕ} {l : List Seg} (h : usedAt base l a = some n) :
    ∃ pre post, l = pre ++ ⟨n, false⟩ :: post ∧ a = base + total pre := by
  induction l generalizing base with
  | nil => simp [usedAt] at h
  | cons s l ih =>
    rw [usedAt] at h
    split at h
    · next hs =>
      refine ⟨[], l, ?_, by simp [hs.1]⟩
      rw [List.nil_append, ← hs.2, ← Option.some.inj h]
    · obtain ⟨pre, post, hl, ha⟩ := ih h
      exact ⟨s :: pre, post, by rw [hl, List.cons_append], by rw [ha, total_cons, Nat.add_assoc]⟩

lemma usedAt_middle {base : ℕ} {pre post : List Seg} {s : Seg} (hpre : ∀ t ∈ pre, 0 < t.size)
    (hs : s.free = false) : usedAt base (pre ++ s :: post) (base + total pre) = some s.size := by
  rw [usedAt_append, usedAt_of_ge hpre le_rfl, Option.none_or, usedAt, if_pos ⟨rfl, hs⟩]

/-- The used segments before and after a position do not depend on what stands there. -/
lemma usedAt_middle_ne {base a : ℕ} {pre post : List Seg} (mid mid' : List Seg)
    (htotal : total mid' = total mid)
    (hmid : usedAt (base + total pre) mid' a = usedAt (base + total pre) mid a) :
    usedAt base (pre ++ (mid' ++ post)) a = usedAt base (pre ++ (mid ++ post)) a := by
  simp only [usedAt_append, hmid, htotal]

lemma usedAt_disjoint {base a n : ℕ} {pre post : List Seg} {s : Seg} (hs : s.free = true)
    (h : usedAt base (pre ++ s :: post) a = some n) :
    a + n ≤ base + total pre ∨ base + total pre + s.size ≤ a := by
  rw [usedAt_append, Option.or_eq_some_iff] at h
  rcases h with h | ⟨-, h⟩
  · obtain ⟨pre', post', hl, ha⟩ := usedAt_eq_some h
    refine Or.inl ?_
    rw [ha, hl, total_append, total_cons]
    simp only
    omega
  · rw [usedAt, if_neg (by simp [hs])] at h
    refine Or.inr (Nat.le_of_not_lt fun hlt => ?_)
    rw [usedAt_of_lt _ hlt] at h
    exact nomatch h

lemma dvd_total {grain : ℕ} {l : List Seg} (h : ∀ s ∈ l, grain ∣ s.size) : grain ∣ total l := by
  induction l with
  | nil => exact Nat.dvd_zero grain
  | cons s l ih =>
    rw [total_cons]
    exact Nat.dvd_add (h s List.mem_cons_self) (ih fun t ht => h t (List.mem_cons_of_mem s ht))

lemma total_take_lt {l : List Seg} (hpos : ∀ s ∈ l, 0 < s.size) {i j : ℕ} (hij : i < j)
    (hj : j ≤ l.length) : total (l.take i) < total (l.take j) := by
  induction l generalizing i j with
  | nil =>
    rw [List.length_nil] at hj
    omega
  | cons s l ih =>
    obtain ⟨j, rfl⟩ : ∃ k, j = k + 1 := ⟨j - 1, by omega⟩
    rw [List.length_cons] at hj
    rw [List.take_succ_cons, total_cons]
    have hs := hpos s List.mem_cons_self
    cases i with
    | zero =>
      rw [List.take_zero, total_nil]
      omega
    | succ i =>
      rw [List.take_succ_cons, total_cons]
      have := ih (fun t ht => hpos t (List.mem_cons_of_mem s ht)) (i := i) (j := j) (by omega)
        (by omega)
      omega

lemma total_take_injective {l : List Seg} (hpos : ∀ s ∈ l, 0 < s.size) {i j : ℕ}
    (hi : i ≤ l.length) (hj : j ≤ l.length) (h : total (l.take i) = total (l.take j)) : i = j := by
  rcases Nat.lt_trichotomy i j with hij | hij | hij
  · have := total_take_lt hpos hij hj
    omega
  · exact hij
  · have := total_take_lt hpos hij hi
    omega

theorem firstFit_eq_some {n base r : ℕ} {l l' : List Seg} (h : firstFit n base l = some (r, l')) :
    ∃ pre s post, l = pre ++ s :: post ∧ s.free = true ∧ n < s.size ∧ r = base + total pre ∧
      l' = pre ++ ⟨n, false⟩ :: ⟨s.size - n, true⟩ :: post := by
  induction l generalizing base r l' with
  | nil => simp [firstFit] at h
  | cons s l ih =>
    rw [firstFit] at h
    split at h
    · next hs =>
      obtain ⟨rfl, rfl⟩ := Prod.mk.inj (Option.some.inj h)
      exact ⟨[], s, l, rfl, hs.1, hs.2, by simp, rfl⟩
    · obtain ⟨⟨r₁, l₁⟩, h₁, heq⟩ := Option.map_eq_some_iff.mp h
      obtain ⟨rfl, rfl⟩ := Prod.mk.inj heq
      obtain ⟨pre, t, post, hl, hfree, hn, hr, hl'⟩ := ih h₁
      refine ⟨s :: pre, t, post, by rw [hl, List.cons_append], hfree, hn, ?_, ?_⟩
      · rw [hr, total_cons, Nat.add_assoc]
      · rw [hl', List.cons_append]

lemma firstFit_eq_none {n base : ℕ} {l : List Seg} (h : firstFit n base l = none) :
    ∀ s ∈ l, s.free = true → s.size ≤ n := by
  induction l generalizing base with
  | nil => simp
  | cons s l ih =>
    rw [firstFit] at h
    split at h
    · simp at h
    · next hs =>
      intro t ht hfree
      rcases List.mem_cons.mp ht with rfl | ht
      · by_contra hlt
        exact hs ⟨hfree, by omega⟩
      · exact ih (Option.map_eq_none_iff.mp h) t ht hfree

/-- The split adds one used segment and touches no other. -/
lemma usedAt_split {base n a : ℕ} {pre post : List Seg} {s : Seg}
    (hpos : ∀ t ∈ pre ++ s :: post, 0 < t.size) (hs : s.free = true) (hn : n < s.size) :
    usedAt base (pre ++ ⟨n, false⟩ :: ⟨s.size - n, true⟩ :: post) a =
      if a = base + total pre then some n else usedAt base (pre ++ s :: post) a := by
  have hpre : ∀ t ∈ pre, 0 < t.size := fun t ht => hpos t (List.mem_append_left _ ht)
  split
  · next ha =>
    rw [ha]
    exact usedAt_middle hpre rfl
  · next ha =>
    refine usedAt_middle_ne [s] [⟨n, false⟩, ⟨s.size - n, true⟩] ?_ ?_
    · simp only [total_cons, total_nil]
      omega
    · simp [usedAt, ha, hs]

lemma isPartition_split {grain size n : ℕ} {pre post : List Seg} {s : Seg}
    (h : IsPartition grain size (pre ++ s :: post)) (hs : s.free = true) (hn : n < s.size)
    (h0 : 0 < n) (hd : grain ∣ n) :
    IsPartition grain size (pre ++ ⟨n, false⟩ :: ⟨s.size - n, true⟩ :: post) := by
  have hmem : s ∈ pre ++ s :: post := by simp
  constructor
  · intro t ht
    simp only [List.mem_append, List.mem_cons] at ht
    rcases ht with ht | rfl | rfl | ht
    · exact h.pos t (by simp [ht])
    · exact h0
    · exact Nat.sub_pos_of_lt hn
    · exact h.pos t (by simp [ht])
  · intro t ht
    simp only [List.mem_append, List.mem_cons] at ht
    rcases ht with ht | rfl | rfl | ht
    · exact h.dvd t (by simp [ht])
    · exact hd
    · exact Nat.dvd_sub (h.dvd s hmem) hd
    · exact h.dvd t (by simp [ht])
  · have ht := h.total_eq
    simp only [total_append, total_cons] at ht ⊢
    omega
  · have hc := List.isChain_append.mp h.coalesced
    have hc' := List.isChain_cons.mp hc.2.1
    refine List.isChain_append.mpr ⟨hc.1, ?_, ?_⟩
    · refine List.isChain_cons.mpr ⟨by simp [Apart], List.isChain_cons.mpr ⟨?_, hc'.2⟩⟩
      intro t ht hboth
      exact hc'.1 t ht ⟨hs, hboth.2⟩
    · simp [Apart]
  · intro t ht
    cases post with
    | nil =>
      simp only [List.getLast?_append, List.getLast?_cons_cons, List.getLast?_singleton,
        Option.some_or, Option.mem_some] at ht
      rw [← ht]
    | cons u post =>
      apply h.last_free
      simpa using ht

section Positions

lemma mergeAt_append (pre l : List Seg) : mergeAt pre.length (pre ++ l) = pre ++ mergeAt 0 l := by
  induction pre with
  | nil => rfl
  | cons s pre ih => rw [List.length_cons, List.cons_append, mergeAt, ih, List.cons_append]

lemma freeAt_append (pre l : List Seg) : freeAt pre.length (pre ++ l) = pre ++ freeAt 0 l := by
  induction pre with
  | nil => rfl
  | cons s pre ih => rw [List.length_cons, List.cons_append, freeAt, ih, List.cons_append]

lemma total_mergeAt (i : ℕ) (l : List Seg) : total (mergeAt i l) = total l := by
  induction l generalizing i with
  | nil => cases i <;> rfl
  | cons s l ih =>
    cases i with
    | zero =>
      cases l with
      | nil => rfl
      | cons t l =>
        rw [mergeAt]
        split
        · simp only [total_cons]
          omega
        · rfl
    | succ i => rw [mergeAt, total_cons, total_cons, ih]

lemma usedAt_mergeAt (base i : ℕ) (l : List Seg) (a : ℕ) :
    usedAt base (mergeAt i l) a = usedAt base l a := by
  induction l generalizing base i with
  | nil => cases i <;> rfl
  | cons s l ih =>
    cases i with
    | zero =>
      cases l with
      | nil => rfl
      | cons t l =>
        rw [mergeAt]
        split
        · next h => simp [usedAt, h.1, h.2, Nat.add_assoc]
        · rfl
    | succ i => rw [mergeAt, usedAt, usedAt, ih]

lemma length_mergeAt_le (i : ℕ) (l : List Seg) : (mergeAt i l).length ≤ l.length := by
  induction l generalizing i with
  | nil => cases i <;> exact le_rfl
  | cons s l ih =>
    cases i with
    | zero =>
      cases l with
      | nil => exact le_rfl
      | cons t l =>
        rw [mergeAt]
        split <;> simp
    | succ i =>
      rw [mergeAt, List.length_cons, List.length_cons]
      exact Nat.succ_le_succ (ih i)

lemma size_of_mem_mergeAt {P : ℕ → Prop} (hadd : ∀ m n, P m → P n → P (m + n)) (i : ℕ)
    {l : List Seg} (h : ∀ s ∈ l, P s.size) : ∀ s ∈ mergeAt i l, P s.size := by
  induction l generalizing i with
  | nil => cases i <;> exact h
  | cons s l ih =>
    have hl : ∀ t ∈ l, P t.size := fun t ht => h t (List.mem_cons_of_mem s ht)
    cases i with
    | zero =>
      cases l with
      | nil => exact h
      | cons t l =>
        rw [mergeAt]
        split
        · intro u hu
          rcases List.mem_cons.mp hu with rfl | hu
          · exact hadd _ _ (h s List.mem_cons_self) (hl t List.mem_cons_self)
          · exact hl u (List.mem_cons_of_mem t hu)
        · exact h
    | succ i =>
      rw [mergeAt]
      intro u hu
      rcases List.mem_cons.mp hu with rfl | hu
      · exact h u List.mem_cons_self
      · exact ih i hl u hu

lemma mergeAt_zero_free {n : ℕ} {post : List Seg} (h : post.IsChain Apart) :
    ∃ k l, mergeAt 0 (⟨n, true⟩ :: post) = ⟨k, true⟩ :: l ∧ (⟨k, true⟩ :: l).IsChain Apart ∧
      (l = post ∨ ∃ t, post = t :: l) := by
  cases post with
  | nil => exact ⟨n, [], rfl, List.isChain_singleton _, Or.inl rfl⟩
  | cons t post =>
    rw [mergeAt]
    cases ht : t.free with
    | true =>
      refine ⟨n + t.size, post, by simp, ?_, Or.inr ⟨t, rfl⟩⟩
      refine List.isChain_cons.mpr ⟨fun u hu hboth => ?_, (List.isChain_cons.mp h).2⟩
      exact (List.isChain_cons.mp h).1 u hu ⟨ht, hboth.2⟩
    | false =>
      refine ⟨n, t :: post, by simp, ?_, Or.inl rfl⟩
      refine List.isChain_cons.mpr ⟨fun u hu hboth => ?_, h⟩
      rw [List.head?_cons, Option.mem_some] at hu
      simp [← hu, ht] at hboth

lemma mergeAt_zero_cons_free (q : Seg) (k : ℕ) (l : List Seg) :
    mergeAt 0 (q :: ⟨k, true⟩ :: l) =
      if q.free = true then ⟨q.size + k, true⟩ :: l else q :: ⟨k, true⟩ :: l := by
  simp [mergeAt]

/-- Freeing the segment after `pre`, and what is left to merge before it. -/
lemma mergeAt_freeAt_append (pre post : List Seg) (s : Seg) :
    mergeAt pre.length (freeAt pre.length (pre ++ s :: post)) =
      pre ++ mergeAt 0 (⟨s.size, true⟩ :: post) := by
  rw [freeAt_append, mergeAt_append]
  rfl

lemma release_append_singleton (pre post : List Seg) (q s : Seg) :
    release (pre.length + 1) (pre ++ q :: s :: post) =
      pre ++ mergeAt 0 (q :: mergeAt 0 (⟨s.size, true⟩ :: post)) := by
  have h := mergeAt_freeAt_append (pre ++ [q]) post s
  rw [List.length_append, List.length_singleton, List.append_assoc, List.append_assoc] at h
  rw [release, if_neg (by omega), Nat.add_sub_cancel]
  simp only [List.singleton_append] at h
  rw [h, mergeAt_append]

lemma total_freeAt (i : ℕ) (l : List Seg) : total (freeAt i l) = total l := by
  induction l generalizing i with
  | nil => cases i <;> rfl
  | cons s l ih => cases i <;> simp [freeAt, ih]

lemma size_of_mem_freeAt {P : ℕ → Prop} (i : ℕ) {l : List Seg} (h : ∀ s ∈ l, P s.size) :
    ∀ s ∈ freeAt i l, P s.size := by
  induction l generalizing i with
  | nil => cases i <;> exact h
  | cons s l ih =>
    intro u hu
    cases i <;> rcases List.mem_cons.mp hu with rfl | hu
    · exact h s List.mem_cons_self
    · exact h u (List.mem_cons_of_mem s hu)
    · exact h u List.mem_cons_self
    · exact ih _ (fun t ht => h t (List.mem_cons_of_mem s ht)) u hu

lemma size_of_mem_release {P : ℕ → Prop} (hadd : ∀ m n, P m → P n → P (m + n)) (i : ℕ)
    {l : List Seg} (h : ∀ s ∈ l, P s.size) : ∀ s ∈ release i l, P s.size := by
  have hf := fun j => size_of_mem_freeAt (P := P) j h
  rw [release]
  split
  · exact size_of_mem_mergeAt hadd 0 (hf 0)
  · exact size_of_mem_mergeAt hadd _ (size_of_mem_mergeAt hadd _ (hf i))

lemma total_release (i : ℕ) (l : List Seg) : total (release i l) = total l := by
  rw [release]
  split <;> simp only [total_mergeAt, total_freeAt]

lemma length_freeAt (i : ℕ) (l : List Seg) : (freeAt i l).length = l.length := by
  induction l generalizing i with
  | nil => cases i <;> rfl
  | cons s l ih => cases i <;> simp [freeAt, ih]

lemma length_release_le (i : ℕ) (l : List Seg) : (release i l).length ≤ l.length := by
  rw [release]
  split
  · exact (length_mergeAt_le _ _).trans_eq (length_freeAt _ _)
  · exact (length_mergeAt_le _ _).trans ((length_mergeAt_le _ _).trans_eq (length_freeAt _ _))

end Positions

/-- Releasing the segment at an address removes its entry and no other. -/
theorem usedAt_release (base a : ℕ) {pre post : List Seg} {s : Seg}
    (hpos : ∀ t ∈ pre ++ s :: post, 0 < t.size) :
    usedAt base (release pre.length (pre ++ s :: post)) a =
      if a = base + total pre then none else usedAt base (pre ++ s :: post) a := by
  have hfree : usedAt base (release pre.length (pre ++ s :: post)) a =
      usedAt base (pre ++ (⟨s.size, true⟩ :: post)) a := by
    rw [release]
    split
    · next h =>
      rw [List.length_eq_zero_iff.mp h, usedAt_mergeAt]
      rfl
    · rw [usedAt_mergeAt, mergeAt_freeAt_append, usedAt_append, usedAt_mergeAt, ← usedAt_append]
  rw [hfree]
  split
  · next h =>
    have hpre : ∀ t ∈ pre, 0 < t.size := fun t ht => hpos t (List.mem_append_left _ ht)
    have hs : 0 < s.size := hpos s (by simp)
    rw [h, usedAt_append, usedAt_of_ge hpre le_rfl, Option.none_or, usedAt, if_neg (by simp),
      usedAt_of_lt _ (by simpa using hs)]
  · next h =>
    refine usedAt_middle_ne [s] [⟨s.size, true⟩] rfl ?_
    simp [usedAt, h]

/-- The two merges restore the partition. -/
theorem isPartition_release {grain size i : ℕ} {l : List Seg} (h : IsPartition grain size l)
    (hi : i < l.length) : IsPartition grain size (release i l) := by
  obtain ⟨pre, s, post, rfl, rfl⟩ : ∃ pre s post, l = pre ++ s :: post ∧ i = pre.length :=
    ⟨l.take i, l[i], l.drop (i + 1), by simp, by simp [hi.le]⟩
  have hc := List.isChain_append.mp h.coalesced
  obtain ⟨k, r, hr, hchain, hpost⟩ :=
    mergeAt_zero_free (n := s.size) (List.isChain_cons.mp hc.2.1).2
  have hlast : ∀ t ∈ (⟨k, true⟩ :: r : List Seg).getLast?, t.free = true := by
    intro t ht
    cases r with
    | nil =>
      rw [List.getLast?_singleton, Option.mem_some] at ht
      rw [← ht]
    | cons u r =>
      apply h.last_free
      rcases hpost with rfl | ⟨v, rfl⟩ <;> simpa using ht
  have hresult : (release pre.length (pre ++ s :: post)).IsChain Apart ∧
      ∀ t ∈ (release pre.length (pre ++ s :: post)).getLast?, t.free = true := by
    rcases List.eq_nil_or_concat' pre with rfl | ⟨pre, q, rfl⟩
    · have h0 : release 0 (s :: post) = ⟨k, true⟩ :: r := by simpa [release, freeAt] using hr
      rw [List.length_nil, List.nil_append, h0]
      exact ⟨hchain, hlast⟩
    · have hpre := List.isChain_append.mp hc.1
      rw [List.length_append, List.length_singleton, List.append_assoc, List.singleton_append,
        release_append_singleton, hr, mergeAt_zero_cons_free]
      split
      · next hq =>
        -- the merged segment keeps the free flag of `q`, so `pre` stays apart from it
        refine ⟨List.isChain_append.mpr ⟨hpre.1, ?_, ?_⟩, ?_⟩
        · have h' := List.isChain_cons.mp hchain
          exact List.isChain_cons.mpr ⟨fun t ht hboth => h'.1 t ht ⟨rfl, hboth.2⟩, h'.2⟩
        · intro t ht u hu hboth
          rw [List.head?_cons, Option.mem_some] at hu
          exact hpre.2.2 t ht q (by simp) ⟨hboth.1, hq⟩
        · intro t ht
          cases r with
          | nil =>
            simp only [List.getLast?_append, List.getLast?_singleton, Option.some_or,
              Option.mem_some] at ht
            rw [← ht]
          | cons u r => exact hlast t (by simpa using ht)
      · next hq =>
        refine ⟨List.isChain_append.mpr ⟨hpre.1, ?_, ?_⟩, ?_⟩
        · exact List.isChain_cons.mpr ⟨fun t ht hboth => hq hboth.1, hchain⟩
        · intro t ht u hu
          rw [List.head?_cons, Option.mem_some] at hu
          exact hpre.2.2 t ht u (by simp [hu])
        · intro t ht
          exact hlast t (by simpa using ht)
  exact ⟨size_of_mem_release (P := fun n => 0 < n) (fun m n hm _ => Nat.add_pos_left hm n) _ h.pos,
    size_of_mem_release (P := fun n => grain ∣ n) (fun _ _ => Nat.dvd_add) _ h.dvd,
    (total_release _ _).trans h.total_eq, hresult.1, hresult.2⟩

/-- Releasing what `firstFit` has just split off gives back the table. -/
theorem release_split {n : ℕ} {pre post : List Seg} {s : Seg}
    (hc : (pre ++ s :: post).IsChain Apart) (hs : s.free = true) (hn : n < s.size) :
    release pre.length (pre ++ ⟨n, false⟩ :: ⟨s.size - n, true⟩ :: post) = pre ++ s :: post := by
  have hmerge : mergeAt 0 (⟨n, true⟩ :: ⟨s.size - n, true⟩ :: post) = s :: post := by
    rw [mergeAt, if_pos ⟨rfl, rfl⟩]
    congr 1
    cases s
    simp only [Seg.mk.injEq] at hs hn ⊢
    exact ⟨by omega, hs.symm⟩
  rcases List.eq_nil_or_concat' pre with rfl | ⟨pre, q, rfl⟩
  · simpa [release, freeAt] using hmerge
  · have hq : q.free = false := by
      have h := (List.isChain_append.mp hc).2.2 q (by simp) s (by simp)
      simpa [Apart, hs] using h
    rw [List.length_append, List.length_singleton, List.append_assoc, List.singleton_append,
      release_append_singleton, hmerge, List.append_assoc, List.singleton_append]
    cases s
    simp only at hs
    rw [hs, mergeAt_zero_cons_free, if_neg (by simp [hq])]

/-! ### Canonical form -/

lemma usedAt_free_head {base a : ℕ} {s : Seg} {l : List Seg} (hs : s.free = true)
    (h : a < base + s.size) : usedAt base (s :: l) a = none := by
  rw [usedAt, if_neg (by simp [hs]), usedAt_of_lt l h]

/-- What follows a free segment starts with a used one, unless the range ends there. -/
lemma used_after_free (base : ℕ) {s : Seg} {l : List Seg} (hs : s.free = true)
    (hc : (s :: l).IsChain Apart) :
    l = [] ∨ ∃ n, usedAt base (s :: l) (base + s.size) = some n := by
  cases l with
  | nil => exact Or.inl rfl
  | cons t l =>
    have ht : t.free = false := by
      have h := (List.isChain_cons.mp hc).1 t (by simp)
      simpa [Apart, hs] using h
    refine Or.inr ⟨t.size, ?_⟩
    rw [usedAt, if_neg (by simp [hs]), usedAt, if_pos ⟨rfl, ht⟩]

/-- Free segments at the start of one range are as long as the used segments allow. -/
lemma free_head_le {base : ℕ} {s s' : Seg} {l l' : List Seg} (hs : s.free = true)
    (hs' : s'.free = true) (hc : (s :: l).IsChain Apart)
    (htotal : total (s :: l) = total (s' :: l'))
    (hused : ∀ a, usedAt base (s :: l) a = usedAt base (s' :: l') a) : s'.size ≤ s.size := by
  by_contra hlt
  rcases used_after_free base hs hc with rfl | ⟨n, hn⟩
  · rw [total_cons, total_cons, total_nil] at htotal
    omega
  · rw [hused, usedAt_free_head hs' (by omega)] at hn
    cases hn

lemma used_head_eq {base : ℕ} {s s' : Seg} {l l' : List Seg} (hpos' : 0 < s'.size)
    (hs : s.free = false)
    (hused : ∀ a, usedAt base (s :: l) a = usedAt base (s' :: l') a) : s = s' := by
  have h := hused base
  rw [usedAt, if_pos ⟨rfl, hs⟩] at h
  cases hs' : s'.free with
  | true =>
    rw [usedAt_free_head hs' (by omega)] at h
    cases h
  | false =>
    rw [usedAt, if_pos ⟨rfl, hs'⟩] at h
    cases s
    cases s'
    simp only [Option.some.injEq] at h hs hs'
    rw [h, hs, hs']

/-- The used segments determine a range of positive segments without free neighbours. -/
theorem segs_unique {base : ℕ} {l l' : List Seg} (hpos : ∀ s ∈ l, 0 < s.size)
    (hpos' : ∀ s ∈ l', 0 < s.size) (hc : l.IsChain Apart) (hc' : l'.IsChain Apart)
    (htotal : total l = total l') (hused : ∀ a, usedAt base l a = usedAt base l' a) : l = l' := by
  induction l generalizing base l' with
  | nil =>
    cases l' with
    | nil => rfl
    | cons s' l' =>
      have hs' := hpos' s' List.mem_cons_self
      rw [total_nil, total_cons] at htotal
      omega
  | cons s l ih =>
    have hs := hpos s List.mem_cons_self
    cases l' with
    | nil =>
      rw [total_nil, total_cons] at htotal
      omega
    | cons s' l' =>
      have hs' := hpos' s' List.mem_cons_self
      have hhead : s = s' := by
        cases hfree : s.free with
        | false => exact used_head_eq hs' hfree hused
        | true =>
          cases hfree' : s'.free with
          | false => exact (used_head_eq hs hfree' fun a => (hused a).symm).symm
          | true =>
            have h1 := free_head_le hfree hfree' hc htotal hused
            have h2 := free_head_le hfree' hfree hc' htotal.symm fun a => (hused a).symm
            cases s
            cases s'
            simp only at hfree hfree' h1 h2
            rw [hfree, hfree', Nat.le_antisymm h2 h1]
      subst hhead
      rw [total_cons, total_cons] at htotal
      have hrest : ∀ a, usedAt (base + s.size) l a = usedAt (base + s.size) l' a := by
        intro a
        rcases Nat.lt_or_ge a (base + s.size) with hlt | hge
        · rw [usedAt_of_lt l hlt, usedAt_of_lt l' hlt]
        · have h := hused a
          rwa [usedAt, usedAt, if_neg (by omega), if_neg (by omega)] at h
      congr 1
      exact ih (fun t ht => hpos t (List.mem_cons_of_mem s ht))
        (fun t ht => hpos' t (List.mem_cons_of_mem s ht)) (List.isChain_cons.mp hc).2
        (List.isChain_cons.mp hc').2 (by omega) hrest

theorem IsPartition.eq_of_usedAt {grain size base : ℕ} {l l' : List Seg}
    (h : IsPartition grain size l) (h' : IsPartition grain size l')
    (hused : ∀ a, usedAt base l a = usedAt base l' a) : l = l' :=
  segs_unique h.pos h'.pos h.coalesced h'.coalesced (h.total_eq.trans h'.total_eq.symm) hused

/-! ### First fit and holes -/

/-- `firstFit` takes the first segment that is large enough. -/
theorem firstFit_least {n base r : ℕ} {l l' : List Seg} (h : firstFit n base l = some (r, l')) :
    ∃ i s, l[i]? = some s ∧ s.free = true ∧ n < s.size ∧ r = base + total (l.take i) ∧
      ∀ j < i, ∀ t, l[j]? = some t → t.free = true → t.size ≤ n := by
  induction l generalizing base r l' with
  | nil => simp [firstFit] at h
  | cons s l ih =>
    rw [firstFit] at h
    by_cases hs : s.free = true ∧ n < s.size
    · rw [if_pos hs, Option.some.injEq, Prod.mk.injEq] at h
      exact ⟨0, s, rfl, hs.1, hs.2, by simp [← h.1], fun j hj => absurd hj (Nat.not_lt_zero j)⟩
    · rw [if_neg hs] at h
      obtain ⟨⟨r₁, l₁⟩, h₁, heq⟩ := Option.map_eq_some_iff.mp h
      obtain ⟨rfl, -⟩ := Prod.mk.inj heq
      obtain ⟨i, t, ht, hfree, hn, hr, hfirst⟩ := ih h₁
      refine ⟨i + 1, t, ht, hfree, hn, ?_, fun j hj u hu hufree => ?_⟩
      · rw [hr, List.take_succ_cons, total_cons, Nat.add_assoc]
      · cases j with
        | zero =>
          obtain rfl := Option.some.inj hu
          by_contra hlt
          exact hs ⟨hufree, by omega⟩
        | succ j => exact hfirst j (by omega) u hu hufree

lemma mergeAt_zero_grows (n : ℕ) (post : List Seg) :
    ∃ k r, mergeAt 0 (⟨n, true⟩ :: post) = ⟨k, true⟩ :: r ∧ n ≤ k ∧ r.length ≤ post.length ∧
      ∀ u ∈ post.head?, u.free = true → k = n + u.size ∧ r.length < post.length := by
  cases post with
  | nil => exact ⟨n, [], rfl, le_rfl, le_rfl, by simp⟩
  | cons u post =>
    cases hu : u.free with
    | true =>
      refine ⟨n + u.size, post, ?_, by omega, by simp, ?_⟩
      · rw [mergeAt, if_pos ⟨rfl, hu⟩]
      · intro v hv _
        rw [List.head?_cons, Option.mem_some] at hv
        exact ⟨by rw [hv], by simp⟩
    | false =>
      refine ⟨n, u :: post, ?_, le_rfl, le_rfl, ?_⟩
      · rw [mergeAt, if_neg (by simp [hu])]
      · intro v hv hfree
        rw [List.head?_cons, Option.mem_some] at hv
        rw [← hv, hu] at hfree
        cases hfree

/-- Releasing a segment beside a free one leaves a shorter table with a larger free segment. -/
theorem release_beside_free {pre post : List Seg} {s : Seg}
    (hpos : ∀ t ∈ pre ++ s :: post, 0 < t.size)
    (h : (∃ u ∈ post.head?, u.free = true) ∨ ∃ q ∈ pre.getLast?, q.free = true) :
    (release pre.length (pre ++ s :: post)).length < (pre ++ s :: post).length ∧
      ∃ t ∈ release pre.length (pre ++ s :: post), t.free = true ∧ s.size < t.size := by
  obtain ⟨k, r, hmerge, hk, hr, hnext⟩ := mergeAt_zero_grows s.size post
  have hgrow : (∃ u ∈ post.head?, u.free = true) → s.size < k ∧ r.length < post.length := by
    rintro ⟨u, hu, hfree⟩
    obtain ⟨hku, hlen⟩ := hnext u hu hfree
    have hu' := hpos u (by simp [List.mem_of_mem_head? hu])
    exact ⟨by omega, hlen⟩
  rcases List.eq_nil_or_concat' pre with rfl | ⟨pre, q, rfl⟩
  · have hrel : release 0 (s :: post) = ⟨k, true⟩ :: r := by simpa [release, freeAt] using hmerge
    obtain ⟨hlt, hlen⟩ := hgrow (h.resolve_right (by simp))
    rw [List.length_nil, List.nil_append, hrel]
    exact ⟨by simpa using hlen, _, List.mem_cons_self, rfl, hlt⟩
  · have hq := hpos q (by simp)
    rw [List.length_append, List.length_singleton, List.append_assoc, List.singleton_append,
      release_append_singleton, hmerge, mergeAt_zero_cons_free]
    by_cases hfree : q.free = true
    · rw [if_pos hfree]
      refine ⟨?_, ⟨q.size + k, true⟩, by simp, rfl, ?_⟩
      · simp only [List.length_append, List.length_cons]
        omega
      · simp only
        omega
    · rw [if_neg hfree]
      obtain ⟨hlt, hlen⟩ := hgrow (h.resolve_right (by simpa using hfree))
      refine ⟨?_, ⟨k, true⟩, by simp, rfl, hlt⟩
      simp only [List.length_append, List.length_cons]
      omega

end V86d.Lib
