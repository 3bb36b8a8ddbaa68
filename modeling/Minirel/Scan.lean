import Minirel.Parse

namespace Minirel

-- The reserved words that the scanner knows.
inductive Reserved where
  | rwSelect | rwInsert | rwDelete | rwCreate | rwDestroy | rwBuild | rwRebuild | rwDrop | rwLoad | rwPrint | rwHelp | rwQuit
  | rwInto | rwWhere | rwPrimary | rwNumbuckets | rwAll | rwFrom | rwAs | rwTable | rwAnd | rwOr | rwNot | rwValues | intType | realType | charType
  deriving DecidableEq,Repr

-- NOTOKEN, for which no rule of the grammar has a place, a reserved word, or T_STRING.
inductive Token where
  | noToken
  | reserved (word : Reserved)
  | string (sval : Name)
  deriving DecidableEq,Repr

namespace Scan

-- MAXSTRINGLEN of the scanner, which is not that of the catalogs.
def maxStringLen : Nat := 50

def maxChar : Nat := 5000

-- The static array of get_id, and how far charpool is used.
structure Scanner where
  string : Vector UInt8 maxStringLen
  charptr : Nat

def stringAlloc (len : Nat) (s : Scanner) : Except Abort Scanner :=
  if s.charptr + len > maxChar then .error .exit else .ok {s with charptr := s.charptr + len}

-- The bytes stay in charpool until the next statement.
def mkString (src : List UInt8) (s : Scanner) : Except Abort (List UInt8 × Scanner) := do
  return (src,← stringAlloc (src.length + 1) s)

def store {size : Nat} (dst : Vector UInt8 size) (i : Nat) (c : UInt8) : Except Abort (Vector UInt8 size) :=
  if inside : i < size then .ok (dst.set i c) else .error .undefined

def lowerCase (c : UInt8) : UInt8 := if 65 ≤ c ∧ c ≤ 90 then c + 32 else c

-- The loop of lower, from len; src is what follows, without its NUL.
def lower {size : Nat} (max : Nat) : List UInt8 → Vector UInt8 size → Nat → Except Abort (Nat × Vector UInt8 size)
  | [],dst,len => return (len,← store dst len 0)
  | c::src,dst,len =>
    if len < max then do lower max src (← store dst len (lowerCase c)) (len + 1)
    else return (len,← store dst len 0)

-- Each beside what get_id compares with, in its order.
def reservedWords : List (List UInt8 × Reserved) :=
  [([115,101,108,101,99,116],.rwSelect),([105,110,115,101,114,116],.rwInsert),([100,101,108,101,116,101],.rwDelete),
   ([99,114,101,97,116,101],.rwCreate),([100,101,115,116,114,111,121],
     .rwDestroy),([98,117,105,108,100,105,110,100,101,120],.rwBuild),
   ([114,101,98,117,105,108,100,105,110,100,101,120],.rwRebuild),([100,114,111,112,105,110,100,101,120],.rwDrop),
   ([108,111,97,100],.rwLoad),([112,114,105,110,116],.rwPrint),([104,101,108,112],.rwHelp),([113,117,105,116],.rwQuit),
   ([105,110,116,111],.rwInto),([119,104,101,114,101],.rwWhere),([112,114,105,109,97,114,121],.rwPrimary),
   ([110,117,109,98,117,99,107,101,116,115],.rwNumbuckets),([97,108,108],.rwAll),([102,114,111,109],
     .rwFrom),([97,115],.rwAs),
   ([116,97,98,108,101],.rwTable),([97,110,100],.rwAnd),([111,114],.rwOr),([110,111,116],
     .rwNot),([118,97,108,117,101,115],.rwValues),
   ([105,110,116],.intType),([114,101,97,108],.realType),([99,104,97,114],.charType)]

def getId (s : Name) (scanner : Scanner) : Except Abort (Token × Scanner) := do
  let (len,string) ← lower maxStringLen s scanner.string 0
  if len = maxStringLen then return (.noToken,{scanner with string := string})
  match reservedWords.find? fun entry => entry.1 = string.toList.takeWhile (· ≠ 0) with
  | some entry => return (.reserved entry.2,{scanner with string := string})
  | none =>
    let (sval,scanner) ← mkString s {scanner with string := string}
    return (.string sval,scanner)

variable {size : Nat}

theorem store_inside (dst : Vector UInt8 size) {i : Nat} (inside : i < size) (c : UInt8) :
    store dst i c = .ok (dst.set i c) := dif_pos inside

theorem store_outside (dst : Vector UInt8 size) {i : Nat} (outside : ¬ i < size) (c : UInt8) :
    store dst i c = .error .undefined :=
  dif_neg outside

-- What is written before it stays.
theorem take_set (dst : Vector UInt8 size) {i : Nat} (inside : i < size) (c : UInt8) :
    (dst.set i c).toList.take (i + 1) = dst.toList.take i ++ [c] := by
  have place : i < dst.toList.length := by simpa using inside
  have front : (dst.toList.take i ++ [c]).length = i + 1 := by simp; omega
  rw [Vector.toList_set,List.set_eq_take_append_cons_drop,if_pos place,List.append_cons,← front]
  exact List.take_left

-- The array has a place for the NUL when the identifier is shorter than it; one that fills the array
-- has none.
theorem lower_spec (src : List UInt8) (dst : Vector UInt8 size) (len : Nat) (inside : len ≤ size) :
    if len + src.length < size then ∃ dst', lower size src dst len = .ok (len + src.length,dst') ∧
      dst'.toList.take (len + src.length + 1) = dst.toList.take len ++ src.map lowerCase ++ [0]
    else lower size src dst len = .error .undefined := by
  induction src generalizing dst len with
  | nil =>
    by_cases place : len < size
    · rw [if_pos (by simpa using place),lower,store_inside dst place]
      refine ⟨_,rfl,?_⟩
      simpa using take_set dst place 0
    · rw [if_neg (by simpa using place),lower,store_outside dst place]
      rfl
  | cons c src ih =>
    by_cases place : len < size
    · have next := ih (dst.set len (lowerCase c)) (len + 1) place
      have count : len + (c::src).length = len + 1 + src.length := by simp; omega
      rw [count,lower,if_pos place,store_inside dst place,ok_bind]
      by_cases room : len + 1 + src.length < size
      · rw [if_pos room] at next ⊢
        obtain ⟨dst',run,written⟩ := next
        refine ⟨dst',run,?_⟩
        rw [written,take_set]
        simp
      · rw [if_neg room] at next ⊢
        exact next
    · rw [if_neg (by omega),lower,if_neg place,store_outside dst place]
      rfl

theorem lowerCase_ne {c : UInt8} (ne : c ≠ 0) : lowerCase c ≠ 0 := by
  unfold lowerCase
  split
  · rename_i upper
    intro same
    have high := UInt8.le_iff_toNat_le.mp upper.1
    have low := UInt8.le_iff_toNat_le.mp upper.2
    have zero := congrArg UInt8.toNat same
    simp [UInt8.toNat_add] at high low zero
    omega
  · exact ne

-- What get_id compares is the identifier in lower case.
theorem lower_text {s : Name} (text : 0 ∉ s) {dst : Vector UInt8 size}
    (written : dst.toList.take (s.length + 1) = s.map lowerCase ++ [0]) :
    dst.toList.takeWhile (· ≠ 0) = s.map lowerCase := by
  have parts := List.take_append_drop (s.length + 1) dst.toList
  rw [written,List.append_assoc] at parts
  rw [← parts,List.takeWhile_append_of_pos]
  · simp
  · intro c member
    obtain ⟨b,memberB,rfl⟩ := List.mem_map.mp member
    exact decide_eq_true (lowerCase_ne fun zero => text (zero ▸ memberB))

theorem getId_long {s : Name} (long : maxStringLen ≤ s.length) (scanner : Scanner) :
    getId s scanner = .error .undefined := by
  have run := lower_spec s scanner.string 0 (Nat.zero_le _)
  rw [if_neg (by omega)] at run
  rw [getId,run]
  rfl

-- What get_id does once lower has filled its array.
def deliver (s : Name) (scanner : Scanner) : Except Abort (Token × Scanner) :=
  match reservedWords.find? fun entry => entry.1 = scanner.string.toList.takeWhile (· ≠ 0) with
  | some entry => .ok (.reserved entry.2,scanner)
  | none => do
    let (sval,scanner) ← mkString s scanner
    return (.string sval,scanner)

theorem getId_short {s : Name} (short : s.length < maxStringLen) (scanner : Scanner) :
    ∃ string : Vector UInt8 maxStringLen, string.toList.take (s.length + 1) = s.map lowerCase ++ [0] ∧
      getId s scanner = deliver s {scanner with string := string} := by
  have run := lower_spec s scanner.string 0 (Nat.zero_le _)
  rw [if_pos (by omega)] at run
  obtain ⟨string,run,written⟩ := run
  refine ⟨string,by simpa using written,?_⟩
  rw [getId,run,ok_bind]
  simp only [Nat.zero_add]
  rw [if_neg (Nat.ne_of_lt short)]
  rfl

theorem deliver_defined (s : Name) (scanner : Scanner) : deliver s scanner ≠ .error .undefined := by
  intro ended
  unfold deliver mkString stringAlloc at ended
  split at ended
  · cases ended
  · split at ended <;> cases ended

-- lower writes behind the array exactly for the identifiers that do not fit with their NUL.
theorem getId_undefined_iff (s : Name) (scanner : Scanner) : getId s scanner = .error .undefined ↔
    maxStringLen ≤ s.length := by
  constructor
  · intro ended
    by_contra long
    obtain ⟨string,_,delivered⟩ := getId_short (Nat.not_le.mp long) scanner
    exact deliver_defined _ _ (delivered ▸ ended)
  · intro long
    exact getId_long long scanner

end Scan
end Minirel
