import Minirel.Sort
import Minirel.CatalogGains

namespace Minirel
open ByteMemory

-- What an operator asks of two numbers.
def Operator.Relates (op : Operator) (a f : Int) : Prop :=
  match op with
  | .lt => a < f
  | .lte => a ≤ f
  | .eq => a = f
  | .gte => a ≥ f
  | .gt => a > f
  | .ne => a ≠ f

theorem Operator.accepts_compare (op : Operator) (a f : Int) : op.accepts (some (compare a f)) = true ↔
    op.Relates a f := by
  rcases lt_trichotomy a f with less | rfl | more
  · rw [compare_lt_iff_lt.mpr less]
    cases op <;> simp [accepts,Relates] <;> omega
  · rw [compare_eq_iff_eq.mpr rfl]
    cases op <;> simp [accepts,Relates]
  · rw [compare_gt_iff_gt.mpr more]
    cases op <;> simp [accepts,Relates] <;> omega

-- The difference of two ints is wrong by 2^32 where it is no int, and then has the other sign.
theorem wrapped_difference {a f : Int} (intA : IsInt a) (intF : IsInt f) :
    compare (Int.bmod (a - f) (2 ^ 32)) 0 = compare a f ↔ IsInt (a - f) := by
  unfold IsInt at *
  constructor
  · intro same
    by_contra outside
    rcases lt_or_ge (a - f) (-2 ^ 31) with low | high
    · have wrapped : Int.bmod (a - f) (2 ^ 32) = a - f + 2 ^ 32 := by
        rw [← Int.add_bmod_right]
        exact Int.bmod_eq_of_le (by omega) (by omega)
      rw [wrapped,compare_lt_iff_lt.mpr (show a < f by omega),compare_lt_iff_lt] at same
      omega
    · have wrapped : Int.bmod (a - f) (2 ^ 32) = a - f - 2 ^ 32 := by
        rw [← Int.sub_bmod_right]
        exact Int.bmod_eq_of_le (by omega) (by omega)
      rw [wrapped,compare_gt_iff_gt.mpr (show a > f by omega),compare_gt_iff_gt] at same
      omega
  · rintro ⟨low,high⟩
    rw [Int.bmod_eq_of_le (by omega) (by omega)]
    rcases lt_trichotomy a f with less | rfl | more
    · rw [compare_lt_iff_lt.mpr less,compare_lt_iff_lt]
      omega
    · rw [Int.sub_self,compare_eq_iff_eq.mpr rfl,compare_eq_iff_eq.mpr rfl]
    · rw [compare_gt_iff_gt.mpr more,compare_gt_iff_gt]
      omega

theorem integer_difference {a f : Int} (intA : IsInt a) (intF : IsInt f) (behind behind' : List UInt8) :
    Datatype.difference .integer 4 (encode 4 a ++ behind) (encode 4 f ++ behind') =
      some (compare (Int.bmod (a - f) (2 ^ 32)) 0) := by
  simp only [Datatype.difference,intA.decode,intF.decode]

-- matchRec on a record that has the value at the offset of the attribute.
theorem matchRec_integer {a f : Int} (intA : IsInt a) (intF : IsInt f) (before behind behind' : List UInt8)
    (op : Operator) :
    Condition.matchRec ⟨before.length,4,.integer,encode 4 f ++ behind',op⟩ (.of (before ++ (encode 4 a ++ behind))) =
      op.accepts (some (compare (Int.bmod (a - f) (2 ^ 32)) 0)) := by
  have inside : ¬ (before.length : Int) + 4 - 1 ≥ (Record.of (before ++ (encode 4 a ++ behind))).length := by
    simp only [Record.of,List.length_append,length_encode]
    omega
  rw [Condition.matchRec,if_neg inside]
  dsimp only [Record.of]
  rw [Int.toNat_natCast,List.drop_left]
  exact congrArg op.accepts (integer_difference intA intF behind behind')

-- Both comparisons give the signed order exactly where the difference is an int.
theorem integer_comparison_iff (a f : Int) (intA : IsInt a) (intF : IsInt f) (s : HeapFileScan)
    (before behind behind' : List UInt8)
    (p1Len p2Len : Int) :
    ((∀ op, HeapFileScan.matchRec {s with filter := some ⟨before.length,4,.integer,encode 4 f ++ behind',op⟩}
          (.of (before ++ (encode 4 a ++ behind))) = true ↔ op.Relates a f) ∧
        reccmp (encode 4 a ++ behind) (encode 4 f ++ behind') p1Len p2Len .integer = some (compare a f)) ↔
          IsInt (a - f) := by
  simp only [HeapFileScan.matchRec,reccmp,matchRec_integer intA intF,integer_difference intA intF]
  rw [← wrapped_difference intA intF]
  refine ⟨fun both => Option.some.inj both.2,fun same => ⟨fun op => ?_,congrArg some same⟩⟩
  rw [same]
  exact op.accepts_compare a f

theorem integer_comparison_iff_small :
    ((∀ op, HeapFileScan.matchRec {(⟨HeapFile.fresh 0 0,none,0,nullRid⟩ : HeapFileScan) with
          filter := some ⟨1,4,.integer,encode 4 7 ++ [],op⟩} (.of ([9] ++ (encode 4 (-3) ++ [9,9]))) = true ↔
            op.Relates (-3) 7) ∧
        reccmp (encode 4 (-3) ++ [9,9]) (encode 4 7 ++ []) 4 4 .integer = some (compare (-3 : Int) 7)) ↔
          IsInt (-3 - 7) :=
  integer_comparison_iff (-3) 7 (by decide) (by decide) ⟨HeapFile.fresh 0 0,none,0,nullRid⟩ [9] [9,9] [] 4 4

-- INT_MAX passes for less than -1.
theorem integer_comparison_overflows :
    ¬ ∀ (a f : Int), IsInt a → IsInt f → ∀ (s : HeapFileScan) (before behind behind' : List UInt8) (p1Len p2Len : Int),
      (∀ op, HeapFileScan.matchRec {s with filter := some ⟨before.length,4,.integer,encode 4 f ++ behind',op⟩}
          (.of (before ++ (encode 4 a ++ behind))) = true ↔ op.Relates a f) ∧
        reccmp (encode 4 a ++ behind) (encode 4 f ++ behind') p1Len p2Len .integer = some (compare a f) := by
  intro always
  have wrong := (always 2147483647 (-1) (by decide) (by decide) ⟨HeapFile.fresh 0 0,none,0,nullRid⟩ [] [] [] 4 4).2
  revert wrong
  decide

end Minirel
