import Mathlib.Data.List.Basic
import IncludeForest.Text.Utf8

/-!
# Decoding is cut at ASCII bytes

A log is decoded as a whole and cut into lines as a text. It could as well be
cut as bytes, and its lines decoded one by one. For that, a line feed has to be
the same thing to both, and so it is with every ASCII character but the null. Its
byte continues no character: where one is under way, it breaks off, and what
comes after the byte is read as if nothing had come before (`unitsAfter_append_cons`).
And no other bytes are read as it, for a character of several bytes is never
ASCII (`mem_of_mem_unitsAfter`).

So what stands before such a character and what stands behind it are decoded each
by itself (`decodeLossy_append_cons`).
-/

namespace IncludeForest.Text.Utf8

variable {a b : UInt8} {pending : Pending} {bytes : List UInt8}

/-! ## The units that are still to come -/

/-- **The units that some bytes have**, given what the decoder is in the middle
of. -/
def unitsAfter : Pending → List UInt8 → List (Option Char)
  | pending, [] => finish pending
  | pending, b :: rest => (step pending b).1 ++ unitsAfter (step pending b).2 rest

theorem foldl_advance (bytes : List UInt8) (found : List (Option Char)) (pending : Pending) :
    (bytes.foldl advance (found, pending)).1.reverse
        ++ finish (bytes.foldl advance (found, pending)).2
      = found.reverse ++ unitsAfter pending bytes := by
  induction bytes generalizing found pending with
  | nil => rfl
  | cons b rest ih =>
    rw [List.foldl_cons, advance]
    dsimp only
    rw [ih, List.reverse_append, List.reverse_reverse, List.append_assoc, unitsAfter]

theorem units_eq_unitsAfter (bytes : List UInt8) : units bytes = unitsAfter .between bytes :=
  foldl_advance bytes [] .between

/-! ## ASCII and all else -/

/-- **What becomes of a value** when so many bytes more bring nothing but their six
bits each, all of them 0. -/
def shiftedBy : Nat → Nat → Nat
  | 0, value => value
  | count + 1, value => shiftedBy count (value * 64)

theorem shiftedBy_le {value value' : Nat} (h : value ≤ value') (count : Nat) :
    shiftedBy count value ≤ shiftedBy count value' := by
  induction count generalizing value value' with
  | zero => exact h
  | succ count ih => exact ih (Nat.mul_le_mul_right 64 h)

/-- **The least that can come of a pending character is no ASCII**, and the byte
that is awaited is none either. -/
def Pending.IsBeyondAscii : Pending → Prop
  | .between => True
  | .inside value owed least _ =>
    0x80 ≤ least.toNat ∧ 0x80 ≤ shiftedBy (owed - 1) (value * 64 + (least.toNat - 0x80))

theorem isBeyondAscii_between : Pending.between.IsBeyondAscii := trivial

/-- An ASCII byte is a character. -/
theorem start_of_lt (h : b < 0x80) : start b = ([some (Char.ofNat b.toNat)], .between) :=
  if_pos h

/-- **Another byte is none**, and begins at most one that is not ASCII. -/
theorem start_of_le (h : 0x80 ≤ b) :
    (∀ c, some c ∉ (start b).1) ∧ (start b).2.IsBeyondAscii := by
  have hb : 0x80 ≤ b.toNat := UInt8.le_iff_toNat_le.1 h
  unfold start
  rw [if_neg (UInt8.not_lt.2 h)]
  simp only [UInt8.le_iff_toNat_le]
  repeat' split
  all_goals
    refine ⟨by simp, ?_⟩
    simp only [Pending.IsBeyondAscii, shiftedBy, Nat.reduceSub, UInt8.reduceToNat] at *
  all_goals omega

/-- An ASCII byte breaks off what is under way, and is a character. -/
theorem step_of_lt (hpending : pending.IsBeyondAscii) (h : b < 0x80) :
    step pending b = (finish pending ++ [some (Char.ofNat b.toNat)], .between) := by
  cases pending with
  | between => exact start_of_lt h
  | inside value owed least greatest =>
    have hleast : ¬(least ≤ b ∧ b ≤ greatest) := by
      rintro ⟨hle, -⟩
      have hawaited : 0x80 ≤ least.toNat := hpending.1
      have hle := UInt8.le_iff_toNat_le.1 hle
      have hlt : b.toNat < 0x80 := UInt8.lt_iff_toNat_lt.1 h
      omega
    rw [step, if_neg hleast, start_of_lt h]
    rfl

/-- A number is that of its character, if there is one. -/
theorem toNat_ofNat (n : Nat) :
    (Char.ofNat n).toNat = n ∨ (Char.ofNat n).toNat = 0 ∧ ¬n.isValidChar := by
  unfold Char.ofNat
  by_cases h : n.isValidChar
  · left
    rw [dif_pos h]
    rfl
  · right
    rw [dif_neg h]
    exact ⟨rfl, h⟩

theorem toNat_ofNat_of_lt (h : b < 0x80) : (Char.ofNat b.toNat).toNat = b.toNat := by
  have hlt : b.toNat < 0x80 := UInt8.lt_iff_toNat_lt.1 h
  refine (toNat_ofNat b.toNat).resolve_right fun hnone => hnone.2 (.inl ?_)
  omega

/-- **Another byte completes no character that is ASCII.** -/
theorem step_of_le (hpending : pending.IsBeyondAscii) (h : 0x80 ≤ b) :
    (∀ c, some c ∈ (step pending b).1 → 0x80 ≤ c.toNat ∨ c.toNat = 0) ∧
      (step pending b).2.IsBeyondAscii := by
  obtain ⟨hnone, hbegun⟩ := start_of_le h
  cases pending with
  | between => exact ⟨fun c hc => absurd hc (hnone c), hbegun⟩
  | inside value owed least greatest =>
    rw [step]
    split
    · next hb =>
      -- The value grows by six bits, and the least that it can grow to is still to come.
      obtain ⟨hleast, hbeyond⟩ := hpending
      have hb : least.toNat ≤ b.toNat := UInt8.le_iff_toNat_le.1 hb.1
      have hvalue : value * 64 + (least.toNat - 0x80) ≤ value * 64 + (b.toNat - 0x80) := by omega
      have hgrown := Nat.le_trans hbeyond (shiftedBy_le hvalue (owed - 1))
      dsimp only
      split
      · next hlast =>
        subst hlast
        refine ⟨fun c hc => ?_, trivial⟩
        rw [List.mem_singleton, Option.some.injEq] at hc
        rw [Nat.sub_self, shiftedBy] at hgrown
        rw [hc]
        obtain hvalue | hvalue := toNat_ofNat (value * 64 + (b.toNat - 0x80))
        · left
          rw [hvalue]
          exact hgrown
        · exact .inr hvalue.1
      · next hlast =>
        refine ⟨nofun, by decide, ?_⟩
        have hleast : (0x80 : UInt8).toNat - 0x80 = 0 := rfl
        rw [hleast, Nat.add_zero]
        cases hcount : owed - 1 with
        | zero =>
          rw [hcount, shiftedBy] at hgrown
          rw [Nat.zero_sub, shiftedBy]
          omega
        | succ count =>
          rw [hcount, shiftedBy] at hgrown
          exact hgrown
    · refine ⟨fun c hc => ?_, hbegun⟩
      obtain hc | hc := List.mem_cons.1 hc
      · cases hc
      · exact absurd hc (hnone c)

theorem isBeyondAscii_step (hpending : pending.IsBeyondAscii) (b : UInt8) :
    (step pending b).2.IsBeyondAscii := by
  by_cases hb : b < 0x80
  · rw [step_of_lt hpending hb]
    trivial
  · exact (step_of_le hpending (UInt8.not_lt.1 hb)).2

/-! ## Units and ASCII bytes -/

/-- **What comes after an ASCII byte is read as if nothing had come before.** -/
theorem unitsAfter_append_cons (hpending : pending.IsBeyondAscii) (ha : a < 0x80)
    (front back : List UInt8) :
    unitsAfter pending (front ++ a :: back)
      = unitsAfter pending front ++ some (Char.ofNat a.toNat) :: unitsAfter .between back := by
  induction front generalizing pending with
  | nil =>
    rw [List.nil_append, unitsAfter, unitsAfter, step_of_lt hpending ha, List.append_assoc]
    rfl
  | cons b front ih =>
    rw [List.cons_append, unitsAfter, ih (isBeyondAscii_step hpending b), unitsAfter,
      List.append_assoc]

/-- **No other bytes are read as an ASCII character** but the null, which is what
no character is read as. -/
theorem mem_of_mem_unitsAfter (hpending : pending.IsBeyondAscii) (ha : a < 0x80) (hpos : 0 < a)
    (h : some (Char.ofNat a.toNat) ∈ unitsAfter pending bytes) : a ∈ bytes := by
  induction bytes generalizing pending with
  | nil => cases pending <;> simp [unitsAfter, finish] at h
  | cons b bytes ih =>
    rw [unitsAfter, List.mem_append] at h
    obtain h | h := h
    · obtain rfl : a = b := by
        by_cases hb : b < 0x80
        · rw [step_of_lt hpending hb, List.mem_append] at h
          obtain h | h := h
          · cases pending <;> simp [finish] at h
          · rw [List.mem_singleton, Option.some.injEq] at h
            have hnat := congrArg Char.toNat h
            rwa [toNat_ofNat_of_lt ha, toNat_ofNat_of_lt hb, UInt8.toNat_inj] at hnat
        · have hlt : a.toNat < 0x80 := UInt8.lt_iff_toNat_lt.1 ha
          have hpos : 0 < a.toNat := UInt8.lt_iff_toNat_lt.1 hpos
          have hc := (step_of_le hpending (UInt8.not_lt.1 hb)).1 _ h
          rw [toNat_ofNat_of_lt ha] at hc
          omega
      exact List.mem_cons_self
    · exact List.mem_cons_of_mem b (ih (isBeyondAscii_step hpending b) h)

/-! ## Pieces between ASCII bytes -/

/-- **Decoding is cut at an ASCII byte**: what is before it and what is after it
are decoded by themselves. -/
theorem decodeLossy_append_cons (ha : a < 0x80) (front back : List UInt8) :
    decodeLossy (front ++ a :: back)
      = decodeLossy front ++ Char.ofNat a.toNat :: decodeLossy back := by
  unfold decodeLossy
  rw [units_eq_unitsAfter, unitsAfter_append_cons isBeyondAscii_between ha, ← units_eq_unitsAfter,
    ← units_eq_unitsAfter, List.map_append, List.map_cons]
  rfl

/-- **An ASCII character is decoded from its byte only.** -/
theorem mem_of_mem_decodeLossy (ha : a < 0x80) (hpos : 0 < a)
    (h : Char.ofNat a.toNat ∈ decodeLossy bytes) : a ∈ bytes := by
  obtain ⟨unit, hunit, hchar⟩ := List.mem_map.1 h
  cases unit with
  | none =>
    have hnat := congrArg Char.toNat hchar
    rw [toNat_ofNat_of_lt ha] at hnat
    have hlt : a.toNat < 0x80 := UInt8.lt_iff_toNat_lt.1 ha
    exact absurd hnat.symm (Nat.ne_of_lt (Nat.lt_trans hlt (by decide)))
  | some c =>
    obtain rfl : c = Char.ofNat a.toNat := hchar
    rw [units_eq_unitsAfter] at hunit
    exact mem_of_mem_unitsAfter isBeyondAscii_between ha hpos hunit

/-- A byte that completes nothing leaves something under way. -/
theorem step_ne (pending : Pending) (b : UInt8) : step pending b ≠ ([], .between) := by
  have hstart : start b ≠ ([], .between) := by
    unfold start
    repeat' split
    all_goals simp
  cases pending with
  | between => exact hstart
  | inside value owed least greatest =>
    rw [step]
    split
    · dsimp only
      split <;> simp
    · simp

theorem unitsAfter_cons_ne_nil (pending : Pending) (b : UInt8) (bytes : List UInt8) :
    unitsAfter pending (b :: bytes) ≠ [] := by
  induction bytes generalizing pending b with
  | nil =>
    intro h
    rw [unitsAfter, unitsAfter, List.append_eq_nil_iff] at h
    refine step_ne pending b (Prod.ext h.1 ?_)
    cases hnext : (step pending b).2 with
    | between => rfl
    | inside value owed least greatest =>
      rw [hnext] at h
      cases h.2
  | cons next bytes ih =>
    rw [unitsAfter]
    exact List.append_ne_nil_of_right_ne_nil _ (ih _ next)

/-- Something is decoded from every byte. -/
theorem decodeLossy_eq_nil_iff : decodeLossy bytes = [] ↔ bytes = [] := by
  unfold decodeLossy
  rw [List.map_eq_nil_iff, units_eq_unitsAfter]
  cases bytes with
  | nil => exact iff_of_true rfl rfl
  | cons b bytes => exact iff_of_false (unitsAfter_cons_ne_nil .between b bytes) nofun

/-- **A text ends in an ASCII character** if its bytes end in the byte. -/
theorem getLast?_decodeLossy (ha : a < 0x80) (hpos : 0 < a) :
    (decodeLossy bytes).getLast? = some (Char.ofNat a.toNat) ↔ bytes.getLast? = some a := by
  constructor
  · intro h
    -- The last time that the byte occurs, nothing can be behind it.
    have hmem : a ∈ bytes.reverse :=
      List.mem_reverse.2 (mem_of_mem_decodeLossy ha hpos (List.mem_of_getLast? h))
    obtain ⟨back, front, hbytes, hback⟩ := List.eq_append_cons_of_mem hmem
    rw [List.reverse_eq_iff, List.reverse_append, List.reverse_cons, List.append_assoc,
      List.singleton_append] at hbytes
    rw [hbytes, decodeLossy_append_cons ha, List.getLast?_append_cons] at h
    have hnil : back.reverse = [] := by
      refine decodeLossy_eq_nil_iff.1 ?_
      cases hrest : decodeLossy back.reverse with
      | nil => rfl
      | cons c rest =>
        rw [hrest, List.getLast?_cons_cons] at h
        have hmem := mem_of_mem_decodeLossy ha hpos (hrest ▸ List.mem_of_getLast? h)
        exact absurd (List.mem_reverse.1 hmem) hback
    rw [hbytes, hnil]
    exact List.getLast?_concat
  · intro h
    obtain ⟨front, rfl⟩ := List.getLast?_eq_some_iff.1 h
    rw [decodeLossy_append_cons ha]
    exact List.getLast?_concat

end IncludeForest.Text.Utf8
