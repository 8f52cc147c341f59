import Workbench.Proofs.Text.Split
import Workbench.Text.Lossy

/-! Decoding bytes of any kind goes on from a one-byte character as from the beginning: no character
that was begun before it takes it in. So bytes may be cut at such characters before they are decoded,
and the only line ends in the text are those among the bytes. -/
namespace Workbench.Text

/-- What follows the first byte of a character lies above the one-byte characters, and what the
first two bytes say is more than nothing. -/
theorem lead?_spec {b low high : UInt8} {n part : Nat}
    (lead : lead? b = some (n, low, high, part)) :
    0x80 ≤ low ∧ 0 < part * 64 + (low.toNat - 0x80) ∧ 0 < n ∧ (n = 1 → 0 < part) := by
  simp only [lead?, UInt8.lt_iff_toNat_lt, UInt8.reduceToNat] at lead
  split at lead
  · cases lead
  next above1 =>
    split at lead
    · cases lead
      exact ⟨by decide, by omega, by decide, fun _ => by omega⟩
    next above2 =>
      split at lead
      · cases lead
        -- the first byte says nothing if it is the smallest of its kind, but then the next does
        by_cases smallest : b = 0xE0
        · subst smallest
          decide
        · have larger : b.toNat ≠ 224 := fun same => smallest (UInt8.toNat_inj.mp same)
          rw [if_neg smallest]
          exact ⟨by decide, by omega, by decide, by simp⟩
      next above3 =>
        split at lead <;> cases lead
        by_cases smallest : b = 0xF0
        · subst smallest
          decide
        · have larger : b.toNat ≠ 240 := fun same => smallest (UInt8.toNat_inj.mp same)
          rw [if_neg smallest]
          exact ⟨by decide, by omega, by decide, by simp⟩

/-- The bytes that follow end before a one-byte character. -/
theorem followers_append (low high : UInt8) (n : Nat) (front back : List UInt8) {e : UInt8}
    (plain : e < 0x80) (above : 0x80 ≤ low) :
    followers low high n (front ++ e :: back) = followers low high n front := by
  induction front generalizing low high n with
  | nil =>
    have below : ¬low ≤ e := UInt8.not_le.mpr (UInt8.lt_of_lt_of_le plain above)
    cases n <;> simp [followers, below]
  | cons b rest ih =>
    cases n with
    | zero => rfl
    | succ n =>
      rw [List.cons_append, followers, followers, ih 0x80 0xBF n (UInt8.le_refl _)]

theorem length_followers_le (low high : UInt8) (n : Nat) (bytes : List UInt8) :
    (followers low high n bytes).length ≤ bytes.length := by
  induction bytes generalizing low high n with
  | nil => cases n <;> simp [followers]
  | cons b rest ih =>
    cases n with
    | zero => simp [followers]
    | succ n =>
      rw [followers]
      split
      · exact Nat.succ_le_succ (ih 0x80 0xBF n)
      · simp

/-- Decoding is cut at a one-byte character. -/
theorem decodeLossy_append (front back : List UInt8) {e : UInt8} (plain : e < 0x80) :
    decodeLossy (front ++ e :: back) =
      decodeLossy front ++ Char.ofNat e.toNat :: decodeLossy back := by
  induction front using decodeLossy.induct with
  | case1 =>
    simp only [List.nil_append, decodeLossy, if_pos plain]
  | case2 b rest small ih =>
    rw [List.cons_append, decodeLossy, decodeLossy, if_pos small, if_pos small, ih]
    rfl
  | case3 b rest large absent ih =>
    rw [List.cons_append, decodeLossy, decodeLossy, if_neg large, if_neg large]
    simp only [absent, ih, List.cons_append]
  | case4 b rest large n low high part lead following ih =>
    -- the bytes that are taken for the character are the same
    have same : followers low high n (rest ++ e :: back) = following :=
      followers_append low high n rest back plain (lead?_spec lead).1
    have left : (rest ++ e :: back).drop following.length =
        rest.drop following.length ++ e :: back :=
      List.drop_append_of_le_length (length_followers_le low high n rest)
    rw [List.cons_append, decodeLossy, decodeLossy, if_neg large, if_neg large]
    simp only [lead, same, left, ih, List.cons_append]
    rfl

theorem ofNat_ne_newline {n : Nat} (other : n ≠ 10) : Char.ofNat n ≠ '\n' := by
  intro same
  have value : (Char.ofNat n).toNat = 10 := congrArg Char.toNat same
  by_cases valid : n.isValidChar
  · rw [Char.ofNat, dif_pos valid] at value
    exact other value
  · rw [Char.ofNat, dif_neg valid] at value
    cases value

theorem codePoint_cons (part : Nat) (b : UInt8) (rest : List UInt8) :
    codePoint part (b :: rest) = codePoint (part * 64 + (b.toNat - 0x80)) rest := by
  rw [codePoint, List.foldl_cons, codePoint]

theorem le_codePoint (part : Nat) (following : List UInt8) : part ≤ codePoint part following := by
  induction following generalizing part with
  | nil => exact Nat.le_refl part
  | cons b rest ih =>
    have grown := ih (part * 64 + (b.toNat - 0x80))
    rw [codePoint_cons]
    omega

theorem low_le_of_followers {low high : UInt8} {n : Nat} {bytes rest : List UInt8} {b : UInt8}
    (taken : followers low high n bytes = b :: rest) : low ≤ b := by
  cases n with
  | zero => cases taken
  | succ n =>
    cases bytes with
    | nil => cases taken
    | cons c more =>
      rw [followers] at taken
      split at taken <;> cases taken
      next inside =>
        rw [Bool.and_eq_true, decide_eq_true_eq] at inside
        exact inside.1

/-- A character of several bytes is no line end. -/
theorem codePoint_ne_newline {b low high : UInt8} {n part : Nat} (rest : List UInt8)
    (lead : lead? b = some (n, low, high, part))
    (full : (followers low high n rest).length = n) :
    codePoint part (followers low high n rest) ≠ 10 := by
  obtain ⟨-, more, several, single⟩ := lead?_spec lead
  cases taken : followers low high n rest with
  | nil =>
    rw [taken] at full
    exact absurd full (Nat.ne_of_lt several)
  | cons first others =>
    have above := low_le_of_followers taken
    rw [UInt8.le_iff_toNat_le] at above
    cases others with
    | nil =>
      rw [taken] at full
      have large : 0 < part := single full.symm
      have grown := le_codePoint (part * 64 + (first.toNat - 0x80)) []
      rw [codePoint_cons]
      omega
    | cons second others =>
      have grown := le_codePoint ((part * 64 + (first.toNat - 0x80)) * 64 + (second.toNat - 0x80))
        others
      rw [codePoint_cons, codePoint_cons]
      omega

theorem newline_notMem_decodeLossy (bytes : List UInt8) (free : 10 ∉ bytes) :
    '\n' ∉ decodeLossy bytes := by
  induction bytes using decodeLossy.induct with
  | case1 => simp [decodeLossy]
  | case2 b rest small ih =>
    rw [List.mem_cons, not_or] at free
    have other : b.toNat ≠ 10 := fun same => free.1 (UInt8.toNat_inj.mp same.symm)
    rw [decodeLossy, if_pos small, List.mem_cons, not_or]
    exact ⟨(ofNat_ne_newline other).symm, ih free.2⟩
  | case3 b rest large absent ih =>
    rw [List.mem_cons, not_or] at free
    rw [decodeLossy, if_neg large]
    simp only [absent, List.mem_cons, not_or]
    exact ⟨by decide, ih free.2⟩
  | case4 b rest large n low high part lead following ih =>
    rw [List.mem_cons, not_or] at free
    rw [decodeLossy, if_neg large]
    simp only [lead, List.mem_cons, not_or]
    refine ⟨?_, ih fun member => free.2 (List.mem_of_mem_drop member)⟩
    split
    next full => exact (ofNat_ne_newline (codePoint_ne_newline rest lead full)).symm
    next => decide

/-- Cutting at line ends before decoding is cutting after it. -/
theorem splitAt_decodeLossy (bytes : List UInt8) :
    splitAt '\n' (decodeLossy bytes) = (bytes.splitOn 10).map decodeLossy := by
  -- by induction on the length, as a whole piece is cut off at a time
  induction length : bytes.length using Nat.strongRecOn generalizing bytes with
  | ind n ih =>
    subst length
    by_cases member : 10 ∈ bytes
    · obtain ⟨front, back, rfl, free⟩ := List.eq_append_cons_of_mem member
      have later := ih back.length (by simp; omega) back rfl
      have line : Char.ofNat (10 : UInt8).toNat = '\n' := rfl
      rw [decodeLossy_append front back (by decide), line, splitAt_append, later,
        splitAt_of_notMem _ _ (newline_notMem_decodeLossy front free),
        List.splitOn_append_cons_self_of_not_mem free]
      rfl
    · rw [splitAt_of_notMem _ _ (newline_notMem_decodeLossy bytes member),
        List.splitOn_eq_singleton member]
      rfl

end Workbench.Text
