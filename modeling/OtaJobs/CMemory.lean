import Mathlib

namespace OtaJobs.CMemory

/-- How a modelled C call can go wrong: a failed `assert`, or an access outside
the object it reads or writes, which is undefined behaviour in C. -/
inductive Fault
  | assertion
  | outOfBounds
  deriving DecidableEq, Repr

abbrev CResult := Except Fault

variable {α β : Type}

@[simp] theorem ok_bind (a : α) (f : α → CResult β) :
    (Except.ok a : CResult α) >>= f = f a := rfl

@[simp] theorem error_bind (e : Fault) (f : α → CResult β) :
    (Except.error e : CResult α) >>= f = .error e := rfl

@[simp] theorem pure_eq_ok (a : α) : (pure a : CResult α) = .ok a := rfl

@[simp] theorem throw_eq_error (e : Fault) : (throw e : CResult α) = .error e := rfl

@[simp] theorem map_ok (f : α → β) (a : α) :
    (f <$> (Except.ok a : CResult α)) = .ok (f a) := rfl

@[simp] theorem map_error (f : α → β) (e : Fault) :
    (f <$> (Except.error e : CResult α)) = .error e := rfl

theorem bind_eq_ok {x : CResult α} {f : α → CResult β} {b : β} :
    x >>= f = .ok b ↔ ∃ a, x = .ok a ∧ f a = .ok b := by
  cases x <;> simp

theorem bind_eq_error {x : CResult α} {f : α → CResult β} {e : Fault} :
    x >>= f = .error e ↔ x = .error e ∨ ∃ a, x = .ok a ∧ f a = .error e := by
  cases x <;> simp

theorem map_eq_ok {x : CResult α} {f : α → β} {b : β} :
    f <$> x = .ok b ↔ ∃ a, x = .ok a ∧ f a = b := by
  cases x <;> simp

theorem map_eq_error {x : CResult α} {f : α → β} {e : Fault} : f <$> x = .error e ↔ x = .error e := by
  cases x <;> simp

/-- A pointer argument is `NULL` or the bytes readable from it; `PointsTo p n`
says that a non-`NULL` `p` has at least `n` readable bytes. -/
def PointsTo (p : Option (List UInt8)) (n : Nat) : Prop :=
  ∀ t ∈ p, n ≤ t.length

structure CArray (n : Nat) where
  bytes : List UInt8
  length_bytes : bytes.length = n

@[ext] theorem CArray.ext {n : Nat} {a b : CArray n} (h : a.bytes = b.bytes) : a = b := by
  cases a
  cases b
  cases h
  rfl

instance {n : Nat} : DecidableEq (CArray n) := fun a b =>
  decidable_of_iff (a.bytes = b.bytes) ⟨CArray.ext, fun h => h ▸ rfl⟩

def CArray.zero (n : Nat) : CArray n :=
  ⟨List.replicate n 0, List.length_replicate n 0⟩

@[simp] theorem CArray.zero_bytes (n : Nat) : (CArray.zero n).bytes = List.replicate n 0 := rfl

def CArray.overwrite {n : Nat} (a : CArray n) (off : Nat) (src : List UInt8)
    (h : off + src.length ≤ n) : CArray n :=
  ⟨a.bytes.take off ++ src ++ a.bytes.drop (off + src.length), by
    simp only [List.length_append, List.length_take, List.length_drop, a.length_bytes]
    omega⟩

@[simp] theorem CArray.overwrite_bytes {n : Nat} (a : CArray n) (off : Nat) (src : List UInt8)
    (h : off + src.length ≤ n) :
    (a.overwrite off src h).bytes = a.bytes.take off ++ src ++ a.bytes.drop (off + src.length) :=
  rfl

section Overwrite

variable {n off : Nat} (a : CArray n) {src : List UInt8} (h : off + src.length ≤ n)

theorem CArray.overwrite_take :
    (a.overwrite off src h).bytes.take (off + src.length) = a.bytes.take off ++ src := by
  have hoff : (a.bytes.take off).length = off := by simp [a.length_bytes]; omega
  rw [overwrite_bytes, List.append_assoc, List.take_append_eq_append_take, hoff,
    List.take_of_length_le (by omega), Nat.add_sub_cancel_left, List.take_left]

theorem CArray.overwrite_drop {k : Nat} (hk : off + src.length ≤ k) :
    (a.overwrite off src h).bytes.drop k = a.bytes.drop k := by
  have hoff : (a.bytes.take off).length = off := by simp [a.length_bytes]; omega
  rw [overwrite_bytes, List.append_assoc, List.drop_append_eq_append_drop, hoff,
    List.drop_append_eq_append_drop, List.drop_drop, List.drop_of_length_le (by omega),
    List.drop_of_length_le (by omega), show off + src.length + (k - off - src.length) = k by omega]
  rfl

theorem CArray.zero_overwrite_bytes {k : Nat} {s : List UInt8} (h : 0 + s.length ≤ k) :
    ((CArray.zero k).overwrite 0 s h).bytes = s ++ List.replicate (k - s.length) 0 := by
  simp [List.drop_replicate]

theorem replicate_eq_cons {m : Nat} (hm : 0 < m) :
    List.replicate m (0 : UInt8) = 0 :: List.replicate (m - 1) 0 := by
  obtain ⟨m, rfl⟩ : ∃ k, m = k + 1 := ⟨m - 1, by omega⟩
  rfl

end Overwrite

/-- `memcpy(dst + off, src, len)`; `src` is the memory readable at the source
pointer. -/
def memcpy {n : Nat} (dst : CArray n) (off : Nat) (src : List UInt8) (len : Nat) :
    CResult (CArray n) :=
  if h : len ≤ src.length ∧ off + len ≤ n then
    .ok (dst.overwrite off (src.take len) (by simp only [List.length_take]; omega))
  else .error .outOfBounds

section Memcpy

variable {n off len : Nat} {dst : CArray n} {src : List UInt8}

theorem memcpy_of_le (hsrc : len ≤ src.length) (hdst : off + len ≤ n) :
    memcpy dst off src len =
      .ok (dst.overwrite off (src.take len) (by simp only [List.length_take]; omega)) := by
  simp [memcpy, hsrc, hdst]

theorem memcpy_of_take_eq (dst : CArray n) (off : Nat) {s : List UInt8} (hs : src.take len = s)
    (hlen : s.length = len) (hdst : off + len ≤ n) :
    memcpy dst off src len = .ok (dst.overwrite off s (by omega)) := by
  subst hs
  exact memcpy_of_le (by simp at hlen; omega) hdst

theorem memcpy_of_lt (hdst : n < off + len) : memcpy dst off src len = .error .outOfBounds := by
  simp only [memcpy]
  split
  · omega
  · rfl

theorem memcpy_zero {k : Nat} {s : List UInt8} (rest : List UInt8) (hs : s.length < k) :
    ∃ b R, memcpy (CArray.zero k) 0 (s ++ rest) s.length = .ok b ∧ b.bytes = s ++ 0 :: R := by
  refine ⟨_, List.replicate (k - s.length - 1) 0,
    memcpy_of_take_eq _ 0 (List.take_left' rfl) rfl (by omega), ?_⟩
  rw [CArray.zero_overwrite_bytes, replicate_eq_cons (by omega)]

end Memcpy

def CArray.read {n : Nat} (a : CArray n) (i : Nat) : CResult UInt8 :=
  match a.bytes[i]? with
  | some b => .ok b
  | none => .error .outOfBounds

theorem CArray.read_of_lt {n : Nat} (a : CArray n) {i : Nat} (h : i < n) :
    ∃ b, a.read i = .ok b := by
  unfold CArray.read
  rw [List.getElem?_eq_getElem (by rw [a.length_bytes]; exact h)]
  exact ⟨_, rfl⟩

def CArray.store {n : Nat} (a : CArray n) (i : Nat) (v : UInt8) : CResult (CArray n) :=
  memcpy a i [v] 1

/-- The bytes of the C string at the start of `bytes`, up to its first NUL;
running off the end of the object is an out-of-bounds read. -/
def cString : List UInt8 → CResult (List UInt8)
  | [] => .error .outOfBounds
  | b :: bs => if b = 0 then .ok [] else (b :: ·) <$> cString bs

theorem cString_of_mem {bytes : List UInt8} (h : 0 ∈ bytes) : ∃ s, cString bytes = .ok s := by
  induction bytes with
  | nil => simp at h
  | cons b bs ih =>
      by_cases hb : b = 0
      · exact ⟨[], by simp [cString, hb]⟩
      · obtain ⟨s, hs⟩ := ih (by simpa [Ne.symm hb] using h)
        exact ⟨b :: s, by simp [cString, hb, hs]⟩

theorem cString_eq_error {bytes : List UInt8} {e : Fault} (h : cString bytes = .error e) :
    e = .outOfBounds := by
  induction bytes with
  | nil => exact (Except.error.inj h).symm
  | cons b bs ih =>
      by_cases hb : b = 0
      · simp [cString, hb] at h
      · rw [cString, if_neg hb, map_eq_error] at h
        exact ih h

def strlen (bytes : List UInt8) : CResult Nat :=
  List.length <$> cString bytes

theorem cString_append_nul {s : List UInt8} (hs : 0 ∉ s) (rest : List UInt8) :
    cString (s ++ 0 :: rest) = .ok s := by
  induction s with
  | nil => simp [cString]
  | cons b s ih =>
      simp only [List.mem_cons, not_or] at hs
      simp [cString, Ne.symm hs.1, ih hs.2]

theorem cString_of_nul_free {s : List UInt8} (hs : 0 ∉ s) : cString s = .error .outOfBounds := by
  induction s with
  | nil => rfl
  | cons b s ih =>
      simp only [List.mem_cons, not_or] at hs
      simp [cString, Ne.symm hs.1, ih hs.2]

theorem strlen_append_nul {s : List UInt8} (hs : 0 ∉ s) (rest : List UInt8) :
    strlen (s ++ 0 :: rest) = .ok s.length := by
  simp [strlen, cString_append_nul hs]

def strnlen : List UInt8 → Nat → CResult Nat
  | _, 0 => .ok 0
  | [], _ + 1 => .error .outOfBounds
  | b :: bs, m + 1 => if b = 0 then .ok 0 else (· + 1) <$> strnlen bs m

theorem strnlen_append_nul {s : List UInt8} (hs : 0 ∉ s) (rest : List UInt8) {m : Nat}
    (hm : s.length ≤ m) : strnlen (s ++ 0 :: rest) m = .ok s.length := by
  induction s generalizing m with
  | nil => cases m <;> simp [strnlen]
  | cons b s ih =>
      simp only [List.mem_cons, not_or] at hs
      obtain ⟨m, rfl⟩ : ∃ k, m = k + 1 := ⟨m - 1, by simp at hm; omega⟩
      simp [strnlen, Ne.symm hs.1, ih hs.2 (by simpa using hm)]

theorem strnlen_eq_error {bytes : List UInt8} {n : Nat} {e : Fault}
    (h : strnlen bytes n = .error e) : e = .outOfBounds := by
  induction bytes generalizing n with
  | nil => cases n <;> simp [strnlen] at h ⊢; exact h.symm
  | cons b bs ih =>
      cases n with
      | zero => cases h
      | succ m =>
          by_cases hb : b = 0
          · simp [strnlen, hb] at h
          · rw [strnlen, if_neg hb, map_eq_error] at h
            exact ih h

theorem strnlen_of_le {bytes : List UInt8} {n : Nat} (h : n ≤ bytes.length) :
    ∃ k, strnlen bytes n = .ok k := by
  induction bytes generalizing n with
  | nil => exact ⟨0, by rw [Nat.le_zero.mp h]; rfl⟩
  | cons b bs ih =>
      cases n with
      | zero => exact ⟨0, rfl⟩
      | succ m =>
          obtain ⟨k, hk⟩ := ih (n := m) (Nat.le_of_succ_le_succ h)
          by_cases hb : b = 0
          · exact ⟨0, by simp [strnlen, hb]⟩
          · exact ⟨k + 1, by simp [strnlen, hb, hk]⟩

def strncmp : List UInt8 → List UInt8 → Nat → CResult Int
  | _, _, 0 => .ok 0
  | a :: as, b :: bs, n + 1 =>
      if a ≠ b then .ok ((a.toNat : Int) - b.toNat)
      else if a = 0 then .ok 0
      else strncmp as bs n
  | _, _, _ + 1 => .error .outOfBounds

@[simp] theorem strncmp_zero (a b : List UInt8) : strncmp a b 0 = .ok 0 := by
  cases a <;> cases b <;> rfl

theorem strncmp_cons_cons (a b : UInt8) (as bs : List UInt8) (n : Nat) :
    strncmp (a :: as) (b :: bs) (n + 1) =
      if a ≠ b then .ok ((a.toNat : Int) - b.toNat) else if a = 0 then .ok 0
      else strncmp as bs n := rfl

theorem strncmp_append_nul {s t : List UInt8} (hs : 0 ∉ s) (ht : s.length ≤ t.length)
    (rest : List UInt8) :
    ∃ c, strncmp (s ++ rest) t s.length = .ok c ∧ (c = 0 ↔ t.take s.length = s) := by
  induction s generalizing t with
  | nil => exact ⟨0, strncmp_zero _ _, by simp⟩
  | cons a s ih =>
      simp only [List.mem_cons, not_or] at hs
      obtain ⟨b, t, rfl⟩ : ∃ b t', t = b :: t' :=
        List.exists_cons_of_ne_nil (by rintro rfl; simp at ht)
      by_cases hab : a = b
      · subst hab
        obtain ⟨c, hc, hiff⟩ := ih hs.2 (Nat.le_of_succ_le_succ ht)
        refine ⟨c, ?_, by simp [hiff]⟩
        rw [List.cons_append, List.length_cons, strncmp_cons_cons, if_neg (not_not_intro rfl),
          if_neg (Ne.symm hs.1), hc]
      · refine ⟨(a.toNat : Int) - b.toNat,
          by rw [List.cons_append, List.length_cons, strncmp_cons_cons, if_pos hab], ?_⟩
        have hne : a.toNat ≠ b.toNat := fun h => hab (UInt8.toNat.inj h)
        simp only [List.length_cons, List.take_succ_cons, List.cons.injEq, Ne.symm hab, false_and,
          iff_false]
        omega

def strcmp : List UInt8 → List UInt8 → CResult Int
  | a :: as, b :: bs =>
      if a ≠ b then .ok ((a.toNat : Int) - b.toNat)
      else if a = 0 then .ok 0
      else strcmp as bs
  | _, _ => .error .outOfBounds

theorem strcmp_eq_error {a b : List UInt8} {e : Fault} (h : strcmp a b = .error e) :
    e = .outOfBounds := by
  induction a generalizing b with
  | nil => exact (Except.error.inj h).symm
  | cons x xs ih =>
      cases b with
      | nil => exact (Except.error.inj h).symm
      | cons y ys =>
          unfold strcmp at h
          split at h
          · cases h
          · split at h
            · cases h
            · exact ih h

theorem strcmp_cons_cons (a b : UInt8) (as bs : List UInt8) :
    strcmp (a :: as) (b :: bs) =
      if a ≠ b then .ok ((a.toNat : Int) - b.toNat) else if a = 0 then .ok 0
      else strcmp as bs := rfl

theorem strcmp_append_nul {s t : List UInt8} (hs : 0 ∉ s) (ht : s.length < t.length) :
    ∃ c, strcmp (s ++ [0]) t = .ok c ∧ (c = 0 ↔ t.take (s.length + 1) = s ++ [0]) := by
  induction s generalizing t with
  | nil =>
      obtain ⟨b, t, rfl⟩ := List.exists_cons_of_length_pos ht
      by_cases hb : (0 : UInt8) = b
      · subst hb
        exact ⟨0, rfl, by simp⟩
      · refine ⟨((0 : UInt8).toNat : Int) - b.toNat,
          by rw [List.nil_append, strcmp_cons_cons, if_pos hb], ?_⟩
        have hne : (0 : UInt8).toNat ≠ b.toNat := fun h => hb (UInt8.toNat.inj h)
        simp only [List.length_nil, List.take_succ_cons, List.nil_append, List.cons.injEq,
          Ne.symm hb, false_and, iff_false]
        omega
  | cons a s ih =>
      simp only [List.mem_cons, not_or] at hs
      obtain ⟨b, t, rfl⟩ := List.exists_cons_of_length_pos (Nat.zero_lt_of_lt ht)
      by_cases hab : a = b
      · subst hab
        obtain ⟨c, hc, hiff⟩ := ih hs.2 (Nat.lt_of_succ_lt_succ ht)
        refine ⟨c, ?_, by simpa using hiff⟩
        rw [List.cons_append, strcmp_cons_cons, if_neg (not_not_intro rfl),
          if_neg (Ne.symm hs.1), hc]
      · refine ⟨(a.toNat : Int) - b.toNat,
          by rw [List.cons_append, strcmp_cons_cons, if_pos hab], ?_⟩
        have hne : a.toNat ≠ b.toNat := fun h => hab (UInt8.toNat.inj h)
        simp only [List.cons_append, List.length_cons, List.take_succ_cons, List.cons.injEq,
          Ne.symm hab, false_and, iff_false]
        omega

/-- The `n` bytes that `strncpy(dst, src, n)` stores: `src` up to its first NUL,
then NUL padding. -/
def strncpyBytes : List UInt8 → Nat → CResult (List UInt8)
  | _, 0 => .ok []
  | [], _ + 1 => .error .outOfBounds
  | b :: bs, m + 1 =>
      if b = 0 then .ok (List.replicate (m + 1) 0) else (b :: ·) <$> strncpyBytes bs m

def strncpy {k : Nat} (dst : CArray k) (src : List UInt8) (n : Nat) : CResult (CArray k) := do
  let stored ← strncpyBytes src n
  memcpy dst 0 stored n

theorem strncpyBytes_of_nul_free {s : List UInt8} {n : Nat} (hs : 0 ∉ s.take n)
    (hn : n ≤ s.length) : strncpyBytes s n = .ok (s.take n) := by
  induction s generalizing n with
  | nil => simp at hn; simp [hn, strncpyBytes]
  | cons b s ih =>
      cases n with
      | zero => rfl
      | succ n =>
          simp only [List.take_succ_cons, List.mem_cons, not_or] at hs
          simp [strncpyBytes, Ne.symm hs.1, ih hs.2 (by simpa using hn)]

theorem strncpyBytes_append_nul {s : List UInt8} (hs : 0 ∉ s) (rest : List UInt8) {n : Nat}
    (hn : s.length ≤ n) :
    strncpyBytes (s ++ 0 :: rest) n = .ok (s ++ List.replicate (n - s.length) 0) := by
  induction s generalizing n with
  | nil => cases n <;> simp [strncpyBytes]
  | cons b s ih =>
      simp only [List.mem_cons, not_or] at hs
      obtain ⟨n, rfl⟩ : ∃ k, n = k + 1 := ⟨n - 1, by simp at hn; omega⟩
      simp [strncpyBytes, Ne.symm hs.1, ih hs.2 (by simpa using hn)]

theorem strncpyBytes_length {src stored : List UInt8} {n : Nat}
    (h : strncpyBytes src n = .ok stored) : stored.length = n := by
  induction src generalizing n stored with
  | nil =>
      cases n with
      | zero => cases h; rfl
      | succ m => cases h
  | cons b bs ih =>
      cases n with
      | zero => cases h; rfl
      | succ m =>
          simp only [strncpyBytes] at h
          split at h
          · cases h
            exact List.length_replicate _ _
          · obtain ⟨rest, hrest, h⟩ := bind_eq_ok.mp h
            cases h
            rw [List.length_cons, ih hrest]

theorem strncpyBytes_eq_error {src : List UInt8} {n : Nat} {e : Fault} :
    strncpyBytes src n = .error e ↔ e = .outOfBounds ∧ 0 ∉ src.take n ∧ src.length < n := by
  induction src generalizing n with
  | nil =>
      cases n with
      | zero => exact iff_of_false nofun fun h => absurd h.2.2 (Nat.lt_irrefl 0)
      | succ m =>
          simp only [strncpyBytes, Except.error.injEq, List.take_nil, List.not_mem_nil,
            not_false_eq_true, List.length_nil, Nat.zero_lt_succ, and_true]
          exact eq_comm
  | cons b bs ih =>
      cases n with
      | zero => exact iff_of_false nofun fun h => absurd h.2.2 (Nat.not_lt_zero _)
      | succ m =>
          simp only [strncpyBytes, List.take_succ_cons, List.mem_cons, not_or, List.length_cons,
            Nat.succ_lt_succ_iff]
          split
          next hb => exact iff_of_false nofun fun h => h.2.1.1 hb.symm
          next hb =>
            simp only [Ne.symm hb, not_false_eq_true, true_and, ← ih]
            cases strncpyBytes bs m <;> simp

theorem strncpy_eq_error {k : Nat} (dst : CArray k) (src : List UInt8) (n : Nat) (e : Fault) :
    strncpy dst src n = .error e ↔
      e = .outOfBounds ∧ ((0 ∉ src.take n ∧ src.length < n) ∨ k < n) := by
  unfold strncpy
  cases h : strncpyBytes src n with
  | error e' =>
      obtain ⟨rfl, hread⟩ := strncpyBytes_eq_error.mp h
      simp only [error_bind, Except.error.injEq]
      exact ⟨fun he => ⟨he.symm, .inl hread⟩, fun he => he.1.symm⟩
  | ok stored =>
      have hlen := strncpyBytes_length h
      have hread : ¬(0 ∉ src.take n ∧ src.length < n) := fun hr =>
        nomatch (h.symm.trans (strncpyBytes_eq_error.mpr ⟨rfl, hr⟩))
      rw [ok_bind]
      by_cases hk : n ≤ k
      · rw [memcpy_of_le (by omega) (by omega)]
        exact iff_of_false nofun fun h => h.2.elim hread (by omega)
      · rw [memcpy_of_lt (by omega)]
        simp only [Except.error.injEq]
        exact ⟨fun he => ⟨he.symm, .inr (by omega)⟩, fun he => he.1.symm⟩

theorem strncpyBytes_of_le_length {src : List UInt8} {n : Nat} (hn : n ≤ src.length) :
    strncpyBytes src n = .ok ((src.take n).takeWhile (· != 0) ++
      List.replicate (n - ((src.take n).takeWhile (· != 0)).length) 0) := by
  induction src generalizing n with
  | nil =>
      obtain rfl : n = 0 := Nat.le_zero.mp hn
      rfl
  | cons b bs ih =>
      cases n with
      | zero => rfl
      | succ m =>
          rw [List.length_cons] at hn
          by_cases hb : b = 0
          · subst hb
            rfl
          · rw [List.take_succ_cons, List.takeWhile_cons, if_pos (bne_iff_ne.mpr hb)]
            simp only [strncpyBytes, if_neg hb, ih (Nat.le_of_succ_le_succ hn), map_ok,
              List.length_cons, Nat.add_sub_add_right, List.cons_append]

/-- `snprintf(buf, size, ...)` once the conversions have produced `out`: at
most `size - 1` bytes of `out` and a terminating NUL are stored. -/
def snprintf {n : Nat} (buf : CArray n) (size : Nat) (out : List UInt8) : CResult (CArray n) :=
  if size = 0 then .ok buf
  else memcpy buf 0 (out.take (size - 1) ++ [0]) (min out.length (size - 1) + 1)

theorem snprintf_of_lt {n size : Nat} (buf : CArray n) {out : List UInt8}
    (hout : out.length < size) (hsize : size ≤ n) :
    snprintf buf size out =
      .ok (buf.overwrite 0 (out ++ [0]) (by simp; omega)) := by
  have htake : out.take (size - 1) = out := List.take_of_length_le (by omega)
  have hmin : min out.length (size - 1) = out.length := by omega
  rw [snprintf, if_neg (by omega), htake, hmin, memcpy_of_le (by simp) (by omega)]
  congr 1
  ext1
  simp [List.take_of_length_le]

theorem snprintf_zero {k size : Nat} {out : List UInt8} (hout : out.length < size)
    (hsize : size ≤ k) :
    ∃ b R, snprintf (CArray.zero k) size out = .ok b ∧ b.bytes = out ++ 0 :: R := by
  refine ⟨_, List.replicate (k - (out.length + 1)) 0, snprintf_of_lt _ hout hsize, ?_⟩
  rw [CArray.zero_overwrite_bytes, List.length_append, List.length_singleton,
    List.append_assoc, List.singleton_append]

/-- A run of a step function over a list of inputs: each step sees the state
the one before left, and the outputs are collected in order. -/
def runSteps {σ α β : Type} (step : σ → α → CResult (σ × List β)) :
    σ → List α → CResult (σ × List β)
  | s, [] => .ok (s, [])
  | s, a :: as => do
      let r ← step s a
      let r' ← runSteps step r.1 as
      pure (r'.1, r.2 ++ r'.2)

section Runs

variable {σ α β : Type} {step : σ → α → CResult (σ × List β)}

theorem runSteps_cons_eq_ok {s s' : σ} {a : α} {as : List α} {bs : List β}
    (hrun : runSteps step s (a :: as) = .ok (s', bs)) :
    ∃ s₁ bs₁ bs₂, step s a = .ok (s₁, bs₁) ∧ runSteps step s₁ as = .ok (s', bs₂) ∧
      bs = bs₁ ++ bs₂ := by
  obtain ⟨⟨s₁, bs₁⟩, hstep, hrun⟩ := bind_eq_ok.mp hrun
  obtain ⟨⟨s₂, bs₂⟩, hrest, h⟩ := bind_eq_ok.mp hrun
  simp only [pure_eq_ok, Except.ok.injEq, Prod.mk.injEq] at h
  obtain ⟨rfl, rfl⟩ := h
  exact ⟨s₁, bs₁, bs₂, hstep, hrest, rfl⟩

theorem runSteps_cons_of_ok {s s₁ : σ} {a : α} {bs₁ : List β} (hstep : step s a = .ok (s₁, bs₁))
    (as : List α) :
    runSteps step s (a :: as) = (fun r => (r.1, bs₁ ++ r.2)) <$> runSteps step s₁ as := by
  simp only [runSteps, hstep, ok_bind]
  cases runSteps step s₁ as <;> rfl

theorem runSteps_append (s : σ) (as as' : List α) :
    runSteps step s (as ++ as') =
      runSteps step s as >>= fun r => (fun r' => (r'.1, r.2 ++ r'.2)) <$> runSteps step r.1 as' := by
  induction as generalizing s with
  | nil =>
      simp only [List.nil_append, runSteps, ok_bind]
      cases runSteps step s as' <;> rfl
  | cons a as ih =>
      rw [List.cons_append]
      cases hstep : step s a with
      | error e => simp [runSteps, hstep]
      | ok r =>
          rw [runSteps_cons_of_ok hstep, runSteps_cons_of_ok hstep, ih]
          cases runSteps step r.1 as with
          | error e => rfl
          | ok q => cases runSteps step q.1 as' <;> simp

/-- What every step from a state satisfying `P` on an input satisfying `R`
keeps of the state and guarantees of its outputs, a whole run keeps and
guarantees. -/
theorem runSteps_inv {P : σ → Prop} {R : α → Prop} {Q : β → Prop}
    (hstep : ∀ s a s' bs, P s → R a → step s a = .ok (s', bs) → P s' ∧ ∀ b ∈ bs, Q b)
    {s s' : σ} {as : List α} {bs : List β} (hs : P s) (has : ∀ a ∈ as, R a)
    (hrun : runSteps step s as = .ok (s', bs)) : P s' ∧ ∀ b ∈ bs, Q b := by
  induction as generalizing s bs with
  | nil =>
      cases hrun
      exact ⟨hs, nofun⟩
  | cons a as ih =>
      obtain ⟨s₁, bs₁, bs₂, hfirst, hrest, rfl⟩ := runSteps_cons_eq_ok hrun
      obtain ⟨hs₁, hbs₁⟩ := hstep s a s₁ bs₁ hs (has a (List.mem_cons_self _ _)) hfirst
      obtain ⟨hs', hbs₂⟩ := ih hs₁ (fun a ha => has a (List.mem_cons_of_mem _ ha)) hrest
      exact ⟨hs', fun b hb => (List.mem_append.mp hb).elim (hbs₁ b) (hbs₂ b)⟩

theorem runSteps_keeps {P : σ → Prop}
    (hstep : ∀ s a s' bs, P s → step s a = .ok (s', bs) → P s') {s s' : σ} {as : List α}
    {bs : List β} (hs : P s) (hrun : runSteps step s as = .ok (s', bs)) : P s' :=
  (runSteps_inv (R := fun _ => True) (Q := fun _ => True)
    (fun s a s' bs hs _ h => ⟨hstep s a s' bs hs h, fun _ _ => trivial⟩) hs (fun _ _ => trivial)
    hrun).1

/-- Outputs counted against a potential: when each step's outputs satisfying
`p` are paid for by the drop of `φ`, a whole run has no more of them than `φ`
of its first state. -/
theorem runSteps_countP_le {P : σ → Prop} {φ : σ → Nat} {p : β → Bool}
    (hstep : ∀ s a s' bs, P s → step s a = .ok (s', bs) → P s' ∧ bs.countP p + φ s' ≤ φ s)
    {s s' : σ} {as : List α} {bs : List β} (hs : P s) (hrun : runSteps step s as = .ok (s', bs)) :
    bs.countP p + φ s' ≤ φ s := by
  induction as generalizing s bs with
  | nil =>
      cases hrun
      simp
  | cons a as ih =>
      obtain ⟨s₁, bs₁, bs₂, hfirst, hrest, rfl⟩ := runSteps_cons_eq_ok hrun
      obtain ⟨hs₁, hpaid⟩ := hstep s a s₁ bs₁ hs hfirst
      have := ih hs₁ hrest
      rw [List.countP_append]
      omega

theorem runSteps_eq_error_split {s : σ} {as : List α} {e : Fault}
    (hrun : runSteps step s as = .error e) :
    ∃ pre a post s' bs, as = pre ++ a :: post ∧ runSteps step s pre = .ok (s', bs) ∧
      step s' a = .error e := by
  induction as generalizing s with
  | nil => cases hrun
  | cons a as ih =>
      cases hfirst : step s a with
      | error e' =>
          simp only [runSteps, hfirst, error_bind, Except.error.injEq] at hrun
          exact ⟨[], a, as, s, [], rfl, rfl, hrun ▸ hfirst⟩
      | ok r =>
          rw [runSteps_cons_of_ok hfirst, map_eq_error] at hrun
          obtain ⟨pre, a', post, s', bs, rfl, hpre, herr⟩ := ih hrun
          exact ⟨a :: pre, a', post, s', r.2 ++ bs, rfl,
            by rw [runSteps_cons_of_ok hfirst, hpre, map_ok], herr⟩

theorem runSteps_eq_error {P : σ → Prop}
    (hstep : ∀ s a s' bs, P s → step s a = .ok (s', bs) → P s') {s : σ} {as : List α}
    {e : Fault} (hs : P s) (hrun : runSteps step s as = .error e) :
    ∃ s' a, P s' ∧ a ∈ as ∧ step s' a = .error e := by
  obtain ⟨pre, a, post, s', bs, rfl, hpre, herr⟩ := runSteps_eq_error_split hrun
  exact ⟨s', a, runSteps_keeps hstep hs hpre, by simp, herr⟩

end Runs

def lit (s : String) : List UInt8 := s.toList.map Char.toUInt8

/-- The memory of a string literal: its bytes and the terminating NUL. -/
def cLit (s : String) : List UInt8 := lit s ++ [0]

end OtaJobs.CMemory
