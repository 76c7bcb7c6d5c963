import BulkTransfer.Whence

/-!
# Seeks in machine words

A machine has the offset of a seek as a signed word and positions as words without a sign. It adds
them up in words of twice the width, takes the lesser of the sum and the length, and cuts the result
to a word again. Nothing is lost on the way: the position is the one that whole numbers give.
-/

namespace BulkTransfer
namespace Whence

/-- The position a seek aims at, in a word of twice the width. -/
def wordAim (whence : Whence) (offset position length : BitVec 64) : BitVec 128 :=
  match whence with
  | start => offset.signExtend 128
  | current => position.setWidth 128 + offset.signExtend 128
  | fromEnd => length.setWidth 128 - offset.signExtend 128

/-- The lesser of two words with a sign. -/
def wordMin (left right : BitVec 128) : BitVec 128 :=
  if left.sle right then left else right

/-- The position a seek lands on, cut to a word. -/
def wordLanding? (whence : Whence) (offset position length : BitVec 64) : Option (BitVec 64) :=
  let aim := whence.wordAim offset position length
  if aim.slt 0#128 then none else some ((wordMin aim (length.setWidth 128)).setWidth 64)

/-- The position a seek lands on, where a reader keeps its position and its length in words of
another width. -/
def machineLanding? {width : Nat} (whence : Whence) (offset : BitVec 64)
    (position length : BitVec width) : Option (BitVec width) :=
  (whence.wordLanding? offset (position.setWidth 64) (length.setWidth 64)).map (·.setWidth width)

variable (whence : Whence) (offset position length : BitVec 64)

theorem toInt_setWidth : (position.setWidth 128).toInt = position.toNat := by
  have position_lt := position.isLt
  rw [BitVec.toInt_setWidth]
  exact Int.bmod_eq_of_le (by omega) (by omega)

theorem toInt_signExtend : (offset.signExtend 128).toInt = offset.toInt :=
  BitVec.toInt_signExtend_of_le (by decide)

/-- The sums of a seek do not overflow. -/
theorem toInt_wordAim :
    (whence.wordAim offset position length).toInt =
      whence.aim offset.toInt position.toNat length.toNat := by
  have le_offset := BitVec.le_toInt offset
  have offset_lt := @BitVec.toInt_lt 64 offset
  have position_lt := position.isLt
  have length_lt := length.isLt
  cases whence with
  | start => exact toInt_signExtend offset
  | current =>
      rw [wordAim, BitVec.toInt_add, toInt_setWidth, toInt_signExtend]
      exact Int.bmod_eq_of_le (by omega) (by omega)
  | fromEnd =>
      rw [wordAim, BitVec.toInt_sub, toInt_setWidth, toInt_signExtend]
      exact Int.bmod_eq_of_le (by omega) (by omega)

theorem toInt_wordMin (left right : BitVec 128) :
    (wordMin left right).toInt = min left.toInt right.toInt := by
  rw [wordMin]
  split
  · next below => exact (Int.min_eq_left (BitVec.sle_iff_toInt_le.mp below)).symm
  · next above =>
      rw [BitVec.sle_iff_toInt_le] at above
      exact (Int.min_eq_right (Int.le_of_lt (Int.not_le.mp above))).symm

theorem toNat_setWidth {wide : BitVec 128} {value : Nat} (told : wide.toInt = value)
    (small : value ≤ lastOffset) : (wide.setWidth 64).toNat = value := by
  have signed := BitVec.toInt_eq_toNat_cond wide
  have wide_lt := wide.isLt
  have unsigned : wide.toNat = value := by
    split at signed <;> omega
  rw [BitVec.toNat_setWidth, unsigned]
  exact Nat.mod_eq_of_lt (Nat.lt_succ_of_le small)

/-- Cutting the position that a seek lands on to a word loses nothing. -/
theorem toNat_wordLanding? :
    (whence.wordLanding? offset position length).map BitVec.toNat =
      whence.landing? offset.toInt position.toNat length.toNat := by
  have aimed := whence.toInt_wordAim offset position length
  have before_start : (whence.wordAim offset position length).slt 0#128 = true ↔
      whence.aim offset.toInt position.toNat length.toNat < 0 := by
    rw [BitVec.slt_iff_toInt_lt, aimed, BitVec.toInt_zero]
  rw [wordLanding?]
  rcases Int.lt_or_le (whence.aim offset.toInt position.toNat length.toNat) 0 with short | inside
  · rw [if_pos (before_start.mpr short), landing?_eq_none_iff.mpr short]
    rfl
  · have lands := landing?_of_nonneg inside
    have landed : (wordMin (whence.wordAim offset position length) (length.setWidth 128)).toInt =
        (min (whence.aim offset.toInt position.toNat length.toNat).toNat length.toNat : Nat) := by
      rw [toInt_wordMin, aimed, toInt_setWidth]
      omega
    have small := Nat.le_trans (landing?_le lands) (Nat.le_of_lt_succ length.isLt)
    rw [if_neg ((not_congr before_start).mpr (Int.not_lt.mpr inside)), lands, Option.map_some,
      toNat_setWidth landed small]

/-- A reader whose words are narrower loses nothing either, for no seek lands past the length. -/
theorem toNat_machineLanding? {width : Nat} (narrow : width ≤ 64)
    (position length : BitVec width) :
    (whence.machineLanding? offset position length).map BitVec.toNat =
      whence.landing? offset.toInt position.toNat length.toNat := by
  have lands := whence.toNat_wordLanding? offset (position.setWidth 64) (length.setWidth 64)
  rw [BitVec.toNat_setWidth_of_le narrow, BitVec.toNat_setWidth_of_le narrow] at lands
  rw [machineLanding?]
  cases found : whence.wordLanding? offset (position.setWidth 64) (length.setWidth 64) with
  | none =>
      rw [found] at lands
      exact lands
  | some landed =>
      rw [found] at lands
      have small := Nat.lt_of_le_of_lt (landing?_le lands.symm) length.isLt
      rw [← lands, Option.map_some, Option.map_some, Option.map_some, BitVec.toNat_setWidth,
        Nat.mod_eq_of_lt small]

end Whence
end BulkTransfer
