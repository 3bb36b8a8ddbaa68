import Mathlib.Data.List.TakeWhile
import Minirel.ParseNodes
import Minirel.Yylex

namespace Minirel
open ByteMemory LongestMatch

namespace Scan

-- The number that a literal is written for, however large.
def digits (ds : List UInt8) : Int := ds.foldl (fun (n : Int) c => 10 * n + (c.toNat - 48)) 0

def number : List UInt8 → Int
  | 45::ds => -digits ds
  | 43::ds => digits ds
  | ds => digits ds

-- What a long can hold of it.
def clamp (n : Int) : Int := if n < 0 then max n (-2 ^ 63) else min n (2 ^ 63 - 1)

theorem isDigit_iff {c : UInt8} : isDigit c = true ↔ 48 ≤ c.toNat ∧ c.toNat ≤ 57 := by
  rw [isDigit,Bool.and_eq_true,decide_eq_true_iff,decide_eq_true_iff,UInt8.le_iff_toNat_le,UInt8.le_iff_toNat_le]
  exact Iff.rfl

theorem mem_digit {x : List UInt8} : x ∈ digit.matches' ↔ ∃ c, isDigit c = true ∧ x = [c] := by
  rw [digit,mem_oneOf]
  constructor
  · intro listed
    obtain ⟨c,member,same⟩ := listed
    obtain ⟨i,in_range,rfl⟩ := List.mem_map.mp member
    have below := List.mem_range.mp in_range
    refine ⟨_,isDigit_iff.mpr ?_,same⟩
    rw [Nat.toUInt8_eq,UInt8.toNat_ofNat']
    omega
  · intro judged
    obtain ⟨c,in_range,same⟩ := judged
    obtain ⟨low,high⟩ := isDigit_iff.mp in_range
    refine ⟨c,List.mem_map.mpr ⟨c.toNat - 48,List.mem_range.mpr (by omega),?_⟩,same⟩
    rw [Nat.add_sub_cancel' low]
    exact UInt8.ofNat_toNat

theorem mem_num {x : List UInt8} (member : x ∈ num.matches') : x ≠ [] ∧ ∀ c ∈ x, isDigit c = true := by
  obtain ⟨_,b,first,rest,rfl⟩ := mem_mul.mp member
  obtain ⟨c,judged,rfl⟩ := mem_digit.mp first
  refine ⟨List.cons_ne_nil _ _,List.forall_mem_cons.mpr ⟨judged,?_⟩⟩
  rw [RegularExpression.matches'_star,Language.mem_kstar] at rest
  obtain ⟨parts,rfl,each⟩ := rest
  intro d member
  obtain ⟨part,listed,inside⟩ := List.mem_flatten.mp member
  obtain ⟨e,judged,rfl⟩ := mem_digit.mp (each part listed)
  rwa [List.mem_singleton.mp inside]

theorem mem_sNum {x : List UInt8} (member : x ∈ sNum.matches') :
    ∃ ds, (ds ≠ [] ∧ ∀ c ∈ ds, isDigit c = true) ∧ (x = ds ∨ x = 43::ds ∨ x = 45::ds) := by
  obtain ⟨a,ds,first,second,rfl⟩ := mem_mul.mp member
  refine ⟨ds,mem_num second,?_⟩
  rcases mem_add.mp first with none_there | sign
  · rw [(Language.mem_one a).mp none_there]
    exact .inl rfl
  · obtain ⟨c,listed,rfl⟩ := mem_oneOf.mp sign
    rcases List.mem_cons.mp listed with rfl | listed
    · exact .inr (.inl rfl)
    · rw [List.mem_singleton.mp listed]
      exact .inr (.inr rfl)

theorem not_byte {c b : UInt8} (judged : isDigit c = true) (outside : isDigit b = false) : c ≠ b := by
  rintro rfl
  exact Bool.noConfusion (judged.symm.trans outside)

theorem digits_nonneg {ds : List UInt8} (each : ∀ c ∈ ds, isDigit c = true) : 0 ≤ digits ds := by
  suffices onward : ∀ n : Int, 0 ≤ n → 0 ≤ ds.foldl (fun (n : Int) c => 10 * n + (c.toNat - 48)) n from onward 0
    (le_refl 0)
  induction ds with
  | nil => exact fun _ nonneg => nonneg
  | cons c ds ih =>
    intro n nonneg
    have low := (isDigit_iff.mp (each c List.mem_cons_self)).1
    have onward : 0 ≤ 10 * n + ((c.toNat : Int) - 48) := by omega
    exact ih (fun d member => each d (List.mem_cons_of_mem _ member)) _ onward

theorem dropWhile_head {c : UInt8} (visible : isSpace c = false) (rest : List UInt8) :
    (c::rest).dropWhile isSpace = c::rest :=
  List.dropWhile_cons_of_neg (Bool.not_eq_true _ ▸ visible)

theorem digit_visible {c : UInt8} (judged : isDigit c = true) : isSpace c = false := by
  obtain ⟨low,high⟩ := isDigit_iff.mp judged
  have not_blank : c ≠ 32 := not_byte judged rfl
  have beyond : ¬ c ≤ 13 := by
    rw [UInt8.le_iff_toNat_le]
    have : (13 : UInt8).toNat = 13 := rfl
    omega
  rw [isSpace,beq_eq_false_iff_ne.mpr not_blank,decide_eq_false beyond,Bool.and_false]
  rfl

theorem clamp_nonneg {n : Int} (nonneg : 0 ≤ n) : clamp n = min n (2 ^ 63 - 1) := if_neg (by omega)

theorem clamp_neg {n : Int} (nonneg : 0 ≤ n) : clamp (-n) = max (-n) (-2 ^ 63) := by
  unfold clamp
  split <;> omega

-- strtol reads a signed number whole, cut to what a long holds.
theorem strtol_number {text : List UInt8} (scanned : text ∈ sNum.matches') : strtol text = clamp (number text) := by
  obtain ⟨ds,numeral,written⟩ := mem_sNum scanned
  obtain ⟨some_digit,each⟩ := numeral
  have nonneg := digits_nonneg each
  have whole : ds.takeWhile isDigit = ds := List.takeWhile_eq_self_iff.mpr each
  rcases written with rfl | rfl | rfl
  · cases text with
    | nil => exact absurd rfl some_digit
    | cons d ds =>
      have judged := each d List.mem_cons_self
      have plus : some d ≠ some 43 := fun same => not_byte judged (b:=43) rfl (Option.some.inj same)
      have minus : some d ≠ some 45 := fun same => not_byte judged (b:=45) rfl (Option.some.inj same)
      have unsigned : number (d::ds) = digits (d::ds) := by
        unfold number
        split
        · next same => exact absurd (congrArg some (List.cons.inj same).1) minus
        · next same => exact absurd (congrArg some (List.cons.inj same).1) plus
        · rfl
      rw [unsigned,clamp_nonneg nonneg]
      simp only [strtol,dropWhile_head (digit_visible judged),List.head?_cons,if_neg minus,if_neg
        (not_or.mpr ⟨minus,plus⟩),whole,digits]
  · have signed : number (43::ds) = digits ds := rfl
    have unlike : ¬ some (43 : UInt8) = some 45 := by decide
    rw [signed,clamp_nonneg nonneg]
    simp only [strtol,dropWhile_head (show isSpace 43 = false from rfl),List.head?_cons,List.tail_cons,or_true,
      if_true,if_neg unlike,whole,digits]
  · have signed : number (45::ds) = -digits ds := rfl
    rw [signed,clamp_neg nonneg]
    simp only [strtol,dropWhile_head (show isSpace 45 = false from rfl),List.head?_cons,List.tail_cons,true_or,
      if_true,whole,digits]

theorem atoi_number {text : List UInt8} (scanned : text ∈ sNum.matches') :
    atoi text = Int.bmod (clamp (number text)) (2 ^ 32) := by
  rw [atoi,strtol_number scanned]

end Scan

open Scan

-- A value as it is written in the input, and what the scanner delivers for it.
inductive Literal where
  | integer (text : List UInt8) (scanned : text ∈ sNum.matches')
  | real (text : List UInt8) (scanned : text ∈ fixed.matches' ∨ text ∈ scientific.matches')
  | string (sval : List UInt8)

def Literal.value (sscanf : List UInt8 → List UInt8) : Literal → Value
  | integer text _ => .integer (atoi text)
  | real text _ => .real (sscanf text)
  | string sval => .string sval

inductive ColumnType where
  | int | real
  | char (v : Literal)

namespace ColumnType

def parsed (sscanf : List UInt8 → List UInt8) : ColumnType → AttrType
  | int => .int
  | real => .real
  | char v => .char (v.value sscanf)

-- What the declaration asks for.
def declared : ColumnType → Option (Datatype × Int)
  | int => some (.integer,4)
  | real => some (.float,4)
  | char (.integer text _) => if 1 ≤ number text ∧ number text ≤ 255 then some (.string,number text) else none
  | char _ => none

-- The encodings that are not refused.
def Taken (format : Int) : Prop := format = -23 ∨ format = -26 ∨ 1 ≤ format ∧ format ≤ 255

instance (format : Int) : Decidable (Taken format) := inferInstanceAs (Decidable (_ ∨ _ ∨ _))

-- What is no length from 1 to 255 is not stored as the encoding of a type.
def Apart (address : List UInt8 → Int) (sscanf : List UInt8 → List UInt8) : ColumnType → Prop
  | int => True
  | real => True
  | char (.integer text _) => (1 ≤ number text ∧ number text ≤ 255) ∨ ¬ Taken (Int.bmod (clamp (number text)) (2 ^ 32))
  | char (.real text _) => ¬ Taken (decode (sscanf text))
  | char (.string sval) => ¬ Taken (address sval)

end ColumnType

open ColumnType

theorem parseFormatString_none (format : Int) : Interp.parseFormatString format = none ↔ ¬ Taken format := by
  unfold Interp.parseFormatString Taken
  split
  · next int => exact iff_of_false (Option.some_ne_none _) (fun refused => refused (.inl int))
  · split
    · next real => exact iff_of_false (Option.some_ne_none _) (fun refused => refused (.inr (.inl real)))
    · split
      · next length => exact iff_of_false (Option.some_ne_none _) (fun refused => refused (.inr (.inr length.symm)))
      · next no_int no_real no_length =>
        refine iff_of_true rfl ?_
        rintro (int | real | length)
        · exact no_int int
        · exact no_real real
        · exact no_length length.symm

theorem parseFormatString_length {n : Int} (low : 1 ≤ n) (high : n ≤ 255) :
    Interp.parseFormatString n = some (.string,n) := by
  rw [Interp.parseFormatString,if_neg (by omega),if_neg (by omega),if_pos ⟨high,low⟩]

theorem clamp_small {n : Int} (low : 1 ≤ n) (high : n ≤ 255) : Int.bmod (clamp n) (2 ^ 32) = n := by
  rw [clamp,if_neg (by omega),min_eq_left (by omega)]
  exact Int.bmod_eq_of_le (by omega) (by omega)

theorem newnode_stored {α : Type} {a : α} {nodeptr : Nat} {stored : α × Nat}
    (ran : Parser.newnode a nodeptr = .ok stored) : stored.1 = a := by
  unfold Parser.newnode at ran
  split at ran
  · cases ran
  · cases ran
    rfl

theorem attrtype_stored {address : List UInt8 → Int} {attr : Name × AttrType} {nodeptr : Nat}
    {stored : (Name × Int) × Nat}
    (ran : Parser.attrtype address attr nodeptr = .ok stored) : stored.1 = (attr.1,Parser.format address attr.2) := by
  obtain ⟨attrname,type⟩ := attr
  cases type with
  | char length =>
    change (Parser.newnode length nodeptr >>= fun made => Parser.newnode (attrname,Parser.ival address made.1)
      made.2) = _ at ran
    cases value : Parser.newnode length nodeptr with
    | error e =>
      rw [value] at ran
      cases ran
    | ok made =>
      rw [value,ok_bind] at ran
      rw [newnode_stored ran,newnode_stored value]
      rfl
  | int => exact newnode_stored ran
  | real => exact newnode_stored ran
  | oneChar => exact newnode_stored ran

theorem column_type_decodes_iff (address : List UInt8 → Int) (sscanf : List UInt8 → List UInt8) (attrname : Name)
    (t : ColumnType)
    {nodeptr : Nat} {stored : (Name × Int) × Nat} (ran : Parser.attrtype address (attrname,t.parsed sscanf) nodeptr =
      .ok stored) :
    Interp.parseFormatString stored.1.2 = t.declared ↔ t.Apart address sscanf := by
  rw [attrtype_stored ran]
  cases t with
  | int => exact iff_of_true rfl trivial
  | real => exact iff_of_true rfl trivial
  | char v =>
    cases v with
    | integer text scanned =>
      change Interp.parseFormatString (atoi text) = _ ↔ _
      rw [atoi_number scanned,declared,Apart]
      by_cases length : 1 ≤ number text ∧ number text ≤ 255
      · rw [if_pos length,clamp_small length.1 length.2,parseFormatString_length length.1 length.2]
        exact iff_of_true rfl (.inl length)
      · rw [if_neg length,parseFormatString_none]
        exact (or_iff_right length).symm
    | real text scanned => exact parseFormatString_none _
    | string sval => exact parseFormatString_none _

theorem column_type_decodes_iff_char : ∃ scanned : [50,48] ∈ sNum.matches',
    ∃ stored, Parser.attrtype (fun _ => 0) ([97],(ColumnType.char (.integer [50,48] scanned)).parsed id) 0 =
      .ok stored ∧
      Interp.parseFormatString stored.1.2 = some (.string,20) := by
  have scanned : [50,48] ∈ sNum.matches' := (RegularExpression.rmatch_iff_matches' _ _).mp (by decide)
  have ran : Parser.attrtype (fun _ => 0) ([97],(ColumnType.char (.integer [50,48] scanned)).parsed id) 0 =
    .ok (([97],20),2) := rfl
  have decodes := column_type_decodes_iff (fun _ => 0) id [97] (.char (.integer [50,48] scanned)) ran
  exact ⟨scanned,_,ran,decodes.mpr (.inl (by decide))⟩

-- char(-23) is taken for int.
theorem char_length_read_as_int : ∃ scanned : [45,50,51] ∈ sNum.matches',
    ∃ stored, Parser.attrtype (fun _ => 0) ([97],(ColumnType.char (.integer [45,50,51] scanned)).parsed id) 0 =
      .ok stored ∧
      (ColumnType.char (.integer [45,50,51] scanned)).declared = none ∧
      Interp.parseFormatString stored.1.2 = some (.integer,4) := by
  have scanned : [45,50,51] ∈ sNum.matches' := (RegularExpression.rmatch_iff_matches' _ _).mp (by decide)
  exact ⟨scanned,(([97],-23),2),rfl,rfl,rfl⟩
end Minirel
