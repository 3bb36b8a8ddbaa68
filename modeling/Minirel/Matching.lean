import Minirel.Page

namespace Minirel
open ByteMemory

inductive Datatype where
  | string | integer | float
  deriving DecidableEq,Repr

inductive Operator where
  | lt | lte | eq | gte | gt | ne
  deriving DecidableEq,Repr

-- A float is a multiple of 2^-149, an infinity or no number.
inductive FloatValue where
  | finite (units : Int)
  | infinite (negative : Bool)
  | nan
  deriving DecidableEq,Repr

namespace FloatValue

def ofBits (bits : Nat) : FloatValue :=
  let negative := bits / 2 ^ 31 % 2 == 1
  let exponent := bits / 2 ^ 23 % 256
  let fraction : Nat := bits % 2 ^ 23
  if exponent = 255 then if fraction = 0 then .infinite negative else .nan
  else
    let units : Nat := if exponent = 0 then fraction else (2 ^ 23 + fraction) * 2 ^ (exponent - 1)
    .finite (if negative then -(units : Int) else units)

-- The sign of the rounded difference; it is zero only for equal numbers, since the least
-- nonzero difference is a float, and no number when equal infinities meet.
def difference : FloatValue → FloatValue → Option Ordering
  | .nan,_ => none
  | _,.nan => none
  | .finite x,.finite y => some (compare x y)
  | .infinite x,.infinite y => if x = y then none else some (if x then .lt else .gt)
  | .infinite x,.finite _ => some (if x then .lt else .gt)
  | .finite _,.infinite y => some (if y then .gt else .lt)

end FloatValue

-- The bytes a pointer to `bytes` gives; what lies behind a string is its terminator.
def bytesAt (bytes : List UInt8) (count : Nat) : List UInt8 := (List.range count).map fun i => bytes.getD i 0

def strncmp : Nat → List UInt8 → List UInt8 → Int
  | 0,_,_ => 0
  | n+1,one,two =>
    let x := one.headD 0
    let y := two.headD 0
    if x ≠ y then (x.toNat : Int) - y.toNat
    else if x = 0 then 0
    else strncmp n one.tail two.tail

-- diff of matchRec, of which only the sign counts: none is no number.
def Datatype.difference (type : Datatype) (length : Nat) (attr filter : List UInt8) : Option Ordering :=
  match type with
  | .integer => some (compare (Int.bmod (decode (bytesAt attr length) - decode (bytesAt filter length)) (2 ^ 32)) 0)
  | .float =>
    (FloatValue.ofBits (unsigned (bytesAt attr length))).difference (.ofBits (unsigned (bytesAt filter length)))
  | .string => some (compare (strncmp length attr filter) 0)

def Operator.accepts (op : Operator) (diff : Option Ordering) : Bool :=
  match op with
  | .lt => diff == some .lt
  | .lte => diff == some .lt || diff == some .eq
  | .eq => diff == some .eq
  | .gte => diff == some .gt || diff == some .eq
  | .gt => diff == some .gt
  | .ne => diff != some .eq

-- The filter of a scan: offset, length, type, filter and op.
structure Condition where
  offset : Int
  length : Int
  type : Datatype
  filter : List UInt8
  op : Operator
  deriving DecidableEq,Repr

def Condition.matchRec (c : Condition) (rec : Record) : Bool :=
  if c.offset + c.length - 1 ≥ rec.length then false
  else c.op.accepts (c.type.difference c.length.toNat (rec.data.drop c.offset.toNat) c.filter)

end Minirel
