import Minirel.HeapFile

namespace Minirel
open ByteMemory

def isSpace (c : UInt8) : Bool := c == 32 || (9 ≤ c && c ≤ 13)
def isDigit (c : UInt8) : Bool := 48 ≤ c && c ≤ 57

-- strtol reads up to the first byte that is no digit and stays within a long; atoi cuts that to
-- an int.
def strtol (s : List UInt8) : Int :=
  let s := s.dropWhile isSpace
  let sign := s.head?
  let s := if sign = some 45 ∨ sign = some 43 then s.tail else s
  let value : Int := (s.takeWhile isDigit).foldl (fun (n : Int) c => 10 * n + (c.toNat - 48)) 0
  if sign = some 45 then max (-value) (-2 ^ 63) else min value (2 ^ 63 - 1)

def atoi (s : List UInt8) : Int := Int.bmod (strtol s) (2 ^ 32)

def Datatype.code : Datatype → Int
  | .string => 0
  | .integer => 1
  | .float => 2

def Datatype.ofCode (code : Int) : Option Datatype :=
  if code = 0 then some .string else if code = 1 then some .integer else if code = 2 then some .float else none

-- What the filter of a scan points at for a value of that type. atof is the library's, with the
-- result as the bytes of a float.
def searchValue (atof : List UInt8 → List UInt8) (type : Datatype) (attrValue : List UInt8) : List UInt8 :=
  match type with
  | .string => attrValue
  | .integer => encode 4 (atoi attrValue)
  | .float => atof attrValue

-- What startScan checks of a condition.
def Condition.Sound (c : Condition) : Prop :=
  ¬ ((c.offset < 0 ∨ c.length < 1) ∨ (c.type = .integer ∧ c.length ≠ 4 ∨ c.type = .float ∧ c.length ≠ 4))

instance (c : Condition) : Decidable c.Sound := inferInstanceAs (Decidable (¬ _))

theorem HeapFileScan.startScan_sound (s : HeapFileScan) {c : Condition} (sound : c.Sound) :
    s.startScan c.offset c.length (some c.type) (some c.filter) c.op = (.ok,{s with filter := some c}) := by
  rw [startScan,if_neg sound]

theorem HeapFileScan.startScan_unsound (s : HeapFileScan) {c : Condition} (unsound : ¬ c.Sound) :
    s.startScan c.offset c.length (some c.type) (some c.filter) c.op = (.badScanParm,s) := by
  rw [startScan,if_pos (not_not.mp unsound)]

end Minirel
