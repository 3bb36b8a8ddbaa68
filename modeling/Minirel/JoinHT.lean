import Minirel.Catalog

namespace Minirel
open ByteMemory

-- The union of an int, a float and the address of an array of chars.
inductive JAttrType where
  | unset
  | iValue (i : Int)
  | fValue (f : Float32)
  | sValue (bytes : List UInt8)

structure JoinhashBucket where
  attrValue : JAttrType
  rid : RID

structure HTentry where
  bucketCnt : Int
  chain : List JoinhashBucket

structure JoinHashTbl where
  joinAttr : AttrDesc
  HTSIZE : Int
  ht : List HTentry

namespace JoinHashTbl

-- An int of 32 bits.
def wrap (value : Int) : Int := Int.bmod value (2 ^ 32)

-- A pointer is the memory behind it; where that ends nothing may be read.
def load (count : Nat) (memory : List UInt8) : Except Abort (List UInt8) :=
  if count ≤ memory.length then .ok (memory.take count) else .error .undefined

-- while (*attrPtr++) value = 31*value + (int)*attrPtr; a char is signed.
def roll (value : Int) : List UInt8 → Except Abort Int
  | [] => .error .undefined
  | c::memory =>
    if c = 0 then .ok value
    else match memory.head? with
      | none => .error .undefined
      | some next => roll (wrap (31 * value + next.toInt8.toInt)) memory

-- (int)(f * HTSIZE * 31), which is undefined where an int cannot hold it.
def rollFloat (f : Float32) (HTSIZE : Int) : Except Abort Int :=
  let product := f * Float32.ofInt HTSIZE * 31
  if -2147483648 ≤ product ∧ product < 2147483648 then .ok product.toInt32.toInt else .error .undefined

-- INTEGER is 1, FLOAT is 2 and STRING is 0.
def hash (HTSIZE : Int) (attrPtr : List UInt8) (attrType : Int) : Except Abort Nat := do
  let value ←
    if attrType = 1 then do
      let bytes ← load 4 attrPtr
      pure (wrap (decode bytes * HTSIZE * 31))
    else if attrType = 2 then do
      let bytes ← load 4 attrPtr
      rollFloat (Float32.ofBits (UInt32.ofNat (unsigned bytes))) HTSIZE
    else if attrType = 0 then roll 0 attrPtr
    else pure 0
  return (value.tmod HTSIZE).natAbs

def construct (size : Int) (attr : AttrDesc) : JoinHashTbl := ⟨attr,size,List.replicate size.toNat ⟨0,[]⟩⟩

def valueOf (joinAttr : AttrDesc) (joinAttrPtr : List UInt8) : Except Abort JAttrType :=
  if joinAttr.attrType = 1 then do
    let bytes ← load 4 joinAttrPtr
    return .iValue (decode bytes)
  else if joinAttr.attrType = 2 then do
    let bytes ← load 4 joinAttrPtr
    return .fValue (Float32.ofBits (UInt32.ofNat (unsigned bytes)))
  else if joinAttr.attrType = 0 then do
    let bytes ← load joinAttr.attrLen.toNat joinAttrPtr
    return .sValue bytes
  else return .unset

def insert (t : JoinHashTbl) (newRid : RID) (tuple : List UInt8) : Except Abort (Status × JoinHashTbl) := do
  let joinAttrPtr := tuple.drop t.joinAttr.attrOffset.toNat
  let index ← hash t.HTSIZE joinAttrPtr t.joinAttr.attrType
  match t.ht[index]? with
  | none => throw .undefined
  | some entry =>
    let attrValue ← valueOf t.joinAttr joinAttrPtr
    return (.ok,{t with ht := t.ht.set index ⟨wrap (entry.bucketCnt + 1),⟨attrValue,newRid⟩::entry.chain⟩})

-- The member of the union that insert has set is the one that lookup compares.
def found (joinAttr : AttrDesc) (innerJoinAttrPtr : List UInt8) (bucket : JoinhashBucket) : Except Abort Bool :=
  match bucket.attrValue with
  | .unset => return false
  | .iValue i => do
    let bytes ← load 4 innerJoinAttrPtr
    return i = decode bytes
  | .fValue f => do
    let bytes ← load 4 innerJoinAttrPtr
    return f == Float32.ofBits (UInt32.ofNat (unsigned bytes))
  | .sValue bytes => return strncmp joinAttr.attrLen.toNat bytes innerJoinAttrPtr = 0

-- while (tmpBuc != NULL): the RIDs that have been written into the array outRids.
def scanChain (joinAttr : AttrDesc) (innerJoinAttrPtr : List UInt8) (size : Int) : List JoinhashBucket →
    List RID → Except Abort (List RID)
  | [],outRids => return outRids
  | bucket::chain,outRids => do
    if ← found joinAttr innerJoinAttrPtr bucket then
      if outRids.length < size then scanChain joinAttr innerJoinAttrPtr size chain (outRids ++ [bucket.rid]) else throw .undefined
    else scanChain joinAttr innerJoinAttrPtr size chain outRids

-- new throws for a negative size, which nothing catches.
def lookup (t : JoinHashTbl) (innerJoinAttrPtr : List UInt8) : Except Abort (Status × List RID) := do
  let index ← hash t.HTSIZE innerJoinAttrPtr t.joinAttr.attrType
  match t.ht[index]? with
  | none => throw .undefined
  | some entry =>
    if entry.bucketCnt < 0 then throw .exit
    let outRids ← scanChain t.joinAttr innerJoinAttrPtr entry.bucketCnt entry.chain []
    return (.ok,outRids)

def inserts : List (RID × List UInt8) → JoinHashTbl → Except Abort JoinHashTbl
  | [],t => return t
  | e::entries,t => do
    let (_,t) ← t.insert e.1 e.2
    inserts entries t

def attrOf (attr : AttrDesc) (e : RID × List UInt8) : List UInt8 := e.2.drop attr.attrOffset.toNat

-- The comparison that lookup makes.
def Same (attr : AttrDesc) (one key : List UInt8) : Prop :=
  if attr.attrType = 1 then decode (one.take 4) = decode (key.take 4) else strncmp attr.attrLen.toNat
    (one.take attr.attrLen.toNat) key = 0

instance (attr : AttrDesc) (one key : List UInt8) : Decidable (Same attr one key) :=
    inferInstanceAs (Decidable (ite ..))

-- The chain of a string, by the polynomial of its bytes without the first and with the NUL.
def polynomial (value : Int) (bytes : List UInt8) :
    Int := bytes.foldl (fun value c => 31 * value + c.toInt8.toInt) value

def chainOfString (HTSIZE : Int) (memory : List UInt8) : Nat :=
  ((wrap (polynomial 0 (cstring memory ++ [0]).tail)).tmod HTSIZE).natAbs

def chainOfInt (HTSIZE : Int) (memory : List UInt8) :
    Nat := ((wrap (decode (memory.take 4) * HTSIZE * 31)).tmod HTSIZE).natAbs

def chainOf (HTSIZE : Int) (attr : AttrDesc) (memory : List UInt8) : Nat :=
  if attr.attrType = 1 then chainOfInt HTSIZE memory else chainOfString HTSIZE memory

variable {HTSIZE : Int} {attr : AttrDesc} {memory one key : List UInt8} {entries : List (RID × List UInt8)}
  {t : JoinHashTbl}

theorem wrap_step (value : Int) (d : Int) : wrap (31 * wrap value + d) = wrap (31 * value + d) := by
  unfold wrap
  rw [Int.add_bmod,Int.mul_bmod,Int.bmod_bmod,← Int.mul_bmod,← Int.add_bmod]

theorem cstring_cons (c : UInt8) (memory : List UInt8) (more : c ≠ 0) : cstring (c::memory) = c::cstring memory := by
  simp [cstring,more]

-- The loop goes through the bytes up to the first NUL, and past the end of the memory without one.
theorem roll_spec (value : Int) (memory : List UInt8) :
    roll (wrap value) memory = if 0 ∈ memory then .ok
      (wrap (polynomial value (cstring memory ++ [0]).tail)) else .error .undefined := by
  induction memory generalizing value with
  | nil => rfl
  | cons c memory ih =>
    rw [roll]
    by_cases zero : c = 0
    · subst zero
      rw [if_pos rfl,if_pos (List.mem_cons_self ..)]
      rfl
    · rw [if_neg zero,cstring_cons c memory zero,List.cons_append,List.tail_cons]
      have same : 0 ∈ c::memory ↔ 0 ∈ memory := by simp [Ne.symm zero]
      cases memory with
      | nil => rw [if_neg (by simp [Ne.symm zero])]; rfl
      | cons d rest =>
        rw [List.head?_cons]
        dsimp only
        rw [wrap_step,ih]
        by_cases ended : 0 ∈ d::rest
        · rw [if_pos ended,if_pos (same.mpr ended)]
          by_cases last : d = 0
          · subst last
            rfl
          · rw [cstring_cons d rest last]
            rfl
        · rw [if_neg ended,if_neg (mt same.mp ended)]

-- What insert and lookup need of the memory behind a pointer to the attribute.
def Readable (attr : AttrDesc) (memory : List UInt8) : Prop :=
  if attr.attrType = 1 then 4 ≤ memory.length else attr.attrLen.toNat ≤ memory.length ∧ 0 ∈ memory

-- Strings and ints; hash has another branch for floats.
def Typed (attr : AttrDesc) : Prop := attr.attrType = 0 ∨ attr.attrType = 1

theorem load_spec {count : Nat} (long : count ≤ memory.length) : load count memory = .ok (memory.take count) :=
    if_pos long

theorem hash_spec (HTSIZE : Int) (typed : Typed attr) (readable : Readable attr memory) :
    hash HTSIZE memory attr.attrType = .ok (chainOf HTSIZE attr memory) := by
  unfold hash chainOf
  unfold Readable at readable
  rcases typed with string | int
  · have other : ¬ attr.attrType = 1 := by omega
    have other' : ¬ attr.attrType = 2 := by omega
    rw [if_neg other] at readable
    have start : wrap 0 = 0 := rfl
    rw [if_neg other,if_neg other',if_pos string,if_neg other,← start,roll_spec,if_pos readable.2]
    rfl
  · rw [if_pos int] at readable
    rw [if_pos int,if_pos int,load_spec readable]
    rfl

theorem hash_unended (string : attr.attrType = 0) (unended : 0 ∉ memory) :
    hash HTSIZE memory attr.attrType = .error .undefined := by
  have other : ¬ attr.attrType = 1 := by omega
  have other' : ¬ attr.attrType = 2 := by omega
  have start : wrap 0 = 0 := rfl
  unfold hash
  rw [if_neg other,if_neg other',if_pos string,← start,roll_spec,if_neg unended]
  rfl

theorem natAbs_tmod_lt (value : Int) (positive : 1 ≤ HTSIZE) : (value.tmod HTSIZE).natAbs < HTSIZE.toNat := by
  have below := Int.tmod_lt_of_pos value (b:=HTSIZE) (by omega)
  have above := Int.lt_tmod_of_pos value (b:=HTSIZE) (by omega)
  omega

theorem chainOf_lt (positive : 1 ≤ HTSIZE) (attr : AttrDesc) (memory : List UInt8) :
    chainOf HTSIZE attr memory < HTSIZE.toNat := by
  unfold chainOf
  split
  · exact natAbs_tmod_lt _ positive
  · exact natAbs_tmod_lt _ positive

def bucketOf (attr : AttrDesc) (e : RID × List UInt8) : JoinhashBucket :=
  ⟨if attr.attrType = 1 then .iValue (decode ((attrOf attr e).take 4)) else .sValue
    ((attrOf attr e).take attr.attrLen.toNat),e.1⟩

theorem valueOf_spec {e : RID × List UInt8} (typed : Typed attr) (readable : Readable attr (attrOf attr e)) :
    valueOf attr (attrOf attr e) = .ok (bucketOf attr e).attrValue := by
  unfold valueOf bucketOf
  unfold Readable at readable
  rcases typed with string | int
  · have other : ¬ attr.attrType = 1 := by omega
    have other' : ¬ attr.attrType = 2 := by omega
    rw [if_neg other] at readable
    rw [if_neg other,if_neg other',if_pos string,if_neg other,load_spec readable.1]
    rfl
  · rw [if_pos int] at readable
    rw [if_pos int,if_pos int,load_spec readable]
    rfl

-- The tuples of one chain, and the table that a sequence of tuples leaves: the last one comes first.
def onChain (HTSIZE : Int) (attr : AttrDesc) (entries : List (RID × List UInt8)) (i : Nat) : List (RID × List UInt8) :=
  entries.filter fun e => chainOf HTSIZE attr (attrOf attr e) = i

def entryOf (HTSIZE : Int) (attr : AttrDesc) (entries : List (RID × List UInt8)) (i : Nat) : HTentry :=
  ⟨wrap (onChain HTSIZE attr entries i).length,((onChain HTSIZE attr entries i).map (bucketOf attr)).reverse⟩

structure Filled (HTSIZE : Int) (attr : AttrDesc) (entries : List (RID × List UInt8)) (t : JoinHashTbl) : Prop where
  joinAttr : t.joinAttr = attr
  size : t.HTSIZE = HTSIZE
  length : t.ht.length = HTSIZE.toNat
  chains : ∀ i < HTSIZE.toNat, t.ht[i]? = some (entryOf HTSIZE attr entries i)

theorem construct_filled (HTSIZE : Int) (attr : AttrDesc) : Filled HTSIZE attr [] (construct HTSIZE attr) := by
  refine ⟨rfl,rfl,List.length_replicate,fun i below => ?_⟩
  have empty : wrap ((0 : Nat) : Int) = 0 := rfl
  rw [construct,List.getElem?_replicate,if_pos below,entryOf,onChain,List.filter_nil,List.length_nil,empty]
  rfl

theorem entryOf_snoc (HTSIZE : Int) (attr : AttrDesc) (entries : List (RID × List UInt8)) (e : RID × List UInt8)
    (i : Nat) :
    entryOf HTSIZE attr (entries ++ [e]) i =
      if chainOf HTSIZE attr (attrOf attr e) = i then
        ⟨wrap ((entryOf HTSIZE attr entries i).bucketCnt + 1),bucketOf attr e::(entryOf HTSIZE attr entries i).chain⟩
      else entryOf HTSIZE attr entries i := by
  unfold entryOf onChain
  rw [List.filter_append]
  by_cases here : chainOf HTSIZE attr (attrOf attr e) = i
  · rw [if_pos here,List.filter_cons,if_pos (decide_eq_true here),List.filter_nil,List.length_append,
      List.map_append,List.reverse_append,wrap,
      wrap,wrap,Int.bmod_add_bmod]
    rfl
  · have apart : ¬ decide (chainOf HTSIZE attr (attrOf attr e) = i) = true := by rw [decide_eq_true_eq]; exact here
    rw [if_neg here,List.filter_cons,if_neg apart,List.filter_nil,List.append_nil]

theorem insert_spec {e : RID × List UInt8} (positive : 1 ≤ HTSIZE) (typed : Typed attr)
    (filled : Filled HTSIZE attr entries t)
    (readable : Readable attr (attrOf attr e)) :
    ∃ t', t.insert e.1 e.2 = .ok (.ok,t') ∧ Filled HTSIZE attr (entries ++ [e]) t' := by
  obtain ⟨rfl,rfl,length,chains⟩ := filled
  have below := chainOf_lt positive t.joinAttr (attrOf t.joinAttr e)
  have there := chains _ below
  have hashed : hash t.HTSIZE (e.2.drop t.joinAttr.attrOffset.toNat) t.joinAttr.attrType =
      .ok (chainOf t.HTSIZE t.joinAttr (attrOf t.joinAttr e)) :=
    hash_spec t.HTSIZE typed readable
  have value : valueOf t.joinAttr (e.2.drop t.joinAttr.attrOffset.toNat) = .ok (bucketOf t.joinAttr e).attrValue :=
    valueOf_spec typed readable
  have snoc := entryOf_snoc t.HTSIZE t.joinAttr entries e
  generalize chainOf t.HTSIZE t.joinAttr (attrOf t.joinAttr e) = j at below there hashed snoc
  have inserted : t.insert e.1 e.2 =
    .ok (.ok,{t with ht := t.ht.set j ⟨wrap ((entryOf t.HTSIZE t.joinAttr entries j).bucketCnt + 1),
      bucketOf t.joinAttr e::(entryOf t.HTSIZE t.joinAttr entries j).chain⟩}) := by
    rw [insert,hashed,ok_bind,there]
    dsimp only
    rw [value,ok_bind]
    rfl
  refine ⟨_,inserted,rfl,rfl,by rw [List.length_set]; exact length,fun i inside => ?_⟩
  rw [List.getElem?_set,length,snoc]
  by_cases here : j = i
  · subst here
    rw [if_pos rfl,if_pos below,if_pos rfl]
  · rw [if_neg here,if_neg here]
    exact chains i inside

theorem inserts_spec {more : List (RID × List UInt8)} (positive : 1 ≤ HTSIZE) (typed : Typed attr)
    (filled : Filled HTSIZE attr entries t)
    (readable : ∀ e ∈ more, Readable attr (attrOf attr e)) :
    ∃ t', inserts more t = .ok t' ∧ Filled HTSIZE attr (entries ++ more) t' := by
  induction more generalizing entries t with
  | nil => exact ⟨t,rfl,by rw [List.append_nil]; exact filled⟩
  | cons e more ih =>
    rw [List.forall_mem_cons] at readable
    obtain ⟨t1,inserted,filled1⟩ := insert_spec positive typed filled readable.1
    obtain ⟨t2,later,filled2⟩ := ih filled1 readable.2
    refine ⟨t2,?_,by rwa [List.append_assoc] at filled2⟩
    rw [inserts,inserted,ok_bind]
    exact later

-- A string without an end takes the loop out of the memory.
theorem insert_ended {e : RID × List UInt8} {status : Status} {t' : JoinHashTbl}
    (inserted : t.insert e.1 e.2 = .ok (status,t')) :
    t'.joinAttr = t.joinAttr ∧ (t.joinAttr.attrType = 0 → 0 ∈ attrOf t.joinAttr e) := by
  obtain ⟨index,hashed,inserted⟩ := of_bind_ok inserted
  constructor
  · split at inserted
    · cases inserted
    · obtain ⟨value,_,inserted⟩ := of_bind_ok inserted
      cases inserted
      rfl
  · intro string
    by_contra unended
    have refused : hash t.HTSIZE (e.2.drop t.joinAttr.attrOffset.toNat) t.joinAttr.attrType = .error .undefined :=
      hash_unended string unended
    rw [refused] at hashed
    cases hashed

theorem inserts_ended {more : List (RID × List UInt8)} {t' : JoinHashTbl} (inserted : inserts more t = .ok t') :
    t'.joinAttr = t.joinAttr ∧ (t.joinAttr.attrType = 0 → ∀ e ∈ more, 0 ∈ attrOf t.joinAttr e) := by
  induction more generalizing t with
  | nil =>
    cases inserted
    exact ⟨rfl,fun _ _ none => by cases none⟩
  | cons e more ih =>
    obtain ⟨⟨status,t1⟩,now,later⟩ := of_bind_ok inserted
    obtain ⟨same,ended⟩ := insert_ended now
    obtain ⟨same',ended'⟩ := ih later
    rw [same] at ended'
    exact ⟨same'.trans same,fun string => List.forall_mem_cons.mpr ⟨ended string,ended' string⟩⟩

theorem lookup_ended {status : Status} {outRids : List RID} (looked : t.lookup key = .ok (status,outRids))
    (string : t.joinAttr.attrType = 0) :
    0 ∈ key := by
  obtain ⟨index,hashed,_⟩ := of_bind_ok looked
  by_contra unended
  rw [hash_unended string unended] at hashed
  cases hashed

theorem found_spec (typed : Typed attr) (readable : Readable attr key) (e : RID × List UInt8) :
    found attr key (bucketOf attr e) = .ok (decide (Same attr (attrOf attr e) key)) := by
  unfold found bucketOf Same
  unfold Readable at readable
  rcases typed with string | int
  · have other : ¬ attr.attrType = 1 := by omega
    simp only [if_neg other]
    rfl
  · rw [if_pos int] at readable
    simp only [if_pos int,load_spec readable]
    rfl

-- The array takes the RIDs that are found as long as there is room for all of them.
theorem scanChain_spec (typed : Typed attr) (readable : Readable attr key) (size : Int) (es : List (RID × List UInt8))
    (outRids : List RID)
    (inside : outRids.length ≤ size) :
    scanChain attr key size (es.map (bucketOf attr)) outRids =
      if ((outRids.length + (es.filter fun e => Same attr (attrOf attr e) key).length : Nat) : Int) ≤ size then
        .ok (outRids ++ (es.filter fun e => Same attr (attrOf attr e) key).map Prod.fst)
      else .error .undefined := by
  induction es generalizing outRids with
  | nil =>
    rw [List.filter_nil,List.length_nil,Nat.add_zero,if_pos inside,List.map_nil,List.map_nil,List.append_nil]
    rfl
  | cons e es ih =>
    rw [List.map_cons,scanChain,found_spec typed readable,ok_bind]
    by_cases same : Same attr (attrOf attr e) key
    · have accepted : decide (Same attr (attrOf attr e) key) = true := decide_eq_true same
      rw [if_pos accepted,List.filter_cons,if_pos accepted,List.length_cons,List.map_cons]
      by_cases room : outRids.length < size
      · rw [if_pos room,ih _ (by rw [List.length_append,List.length_singleton]; omega),List.length_append,List.length_singleton,
          List.append_assoc,Nat.add_assoc,Nat.add_comm 1]
        rfl
      · rw [if_neg room,if_neg (by omega)]
        rfl
    · have unlike : ¬ decide (Same attr (attrOf attr e) key) = true := by rw [decide_eq_true_eq]; exact same
      rw [if_neg unlike,List.filter_cons,if_neg unlike,ih outRids inside]

-- The tuples that lookup finds on the chain of the key.
def hits (HTSIZE : Int) (attr : AttrDesc) (entries : List (RID × List UInt8)) (key : List UInt8) :
    List (RID × List UInt8) :=
  (onChain HTSIZE attr entries (chainOf HTSIZE attr key)).filter fun e => Same attr (attrOf attr e) key

theorem lookup_spec (positive : 1 ≤ HTSIZE) (typed : Typed attr) (filled : Filled HTSIZE attr entries t)
    (readable : Readable attr key) :
    t.lookup key = if ((hits HTSIZE attr entries key).length : Int) ≤
      wrap (onChain HTSIZE attr entries (chainOf HTSIZE attr key)).length then
        .ok (.ok,((hits HTSIZE attr entries key).map Prod.fst).reverse)
      else if wrap (onChain HTSIZE attr entries (chainOf HTSIZE attr key)).length <
        0 then .error .exit else .error .undefined := by
  obtain ⟨rfl,rfl,_,chains⟩ := filled
  have there := chains _ (chainOf_lt positive t.joinAttr key)
  have scanned := scanChain_spec typed readable
    (wrap (onChain t.HTSIZE t.joinAttr entries (chainOf t.HTSIZE t.joinAttr key)).length)
    (onChain t.HTSIZE t.joinAttr entries (chainOf t.HTSIZE t.joinAttr key)).reverse []
  rw [List.map_reverse,List.filter_reverse,List.length_reverse,List.map_reverse,List.nil_append,List.length_nil,
    Nat.zero_add] at scanned
  change _ → _ = if ((hits t.HTSIZE t.joinAttr entries key).length : Int) ≤ _ then
    Except.ok ((hits t.HTSIZE t.joinAttr entries key).map Prod.fst).reverse else _ at scanned
  rw [lookup,hash_spec t.HTSIZE typed readable,ok_bind,there,entryOf]
  dsimp only
  generalize wrap (onChain t.HTSIZE t.joinAttr entries (chainOf t.HTSIZE t.joinAttr key)).length = size at scanned
  by_cases negative : size < 0
  · rw [if_pos negative,if_neg (by omega),if_pos negative]
    rfl
  · rw [if_neg negative,if_neg negative]
    have empty : ((0 : Nat) : Int) ≤ size := by omega
    rw [scanned empty]
    split <;> rfl

section same

theorem strncmp_take (n : Nat) (one key : List UInt8) : strncmp n (one.take n) key = strncmp n one key := by
  induction n generalizing one key with
  | zero => rfl
  | succ n ih =>
    cases one with
    | nil => rfl
    | cons c one =>
      rw [List.take_succ_cons,strncmp,strncmp,List.headD_cons,List.headD_cons,List.tail_cons,List.tail_cons,ih]

-- Strings that end within the length agree up to their ends.
theorem strncmp_ended {n : Nat} (same : strncmp n one key = 0) (ended : 0 ∈ key.take n) :
    cstring one = cstring key := by
  induction n generalizing one key with
  | zero => cases ended
  | succ n ih =>
    cases key with
    | nil => cases ended
    | cons y key =>
      rw [strncmp,List.headD_cons] at same
      by_cases heads : one.headD 0 = y
      · rw [if_neg (not_not_intro heads)] at same
        by_cases last : y = 0
        · subst last
          cases one with
          | nil => rfl
          | cons x one =>
            rw [List.headD_cons] at heads
            rw [heads]
            rfl
        · cases one with
          | nil => exact absurd heads.symm last
          | cons x one =>
            rw [List.headD_cons] at heads
            subst heads
            rw [List.headD_cons,if_neg last] at same
            rw [List.take_succ_cons,List.mem_cons] at ended
            rw [List.tail_cons,List.tail_cons] at same
            rw [cstring_cons x one last,cstring_cons x key last,ih same (ended.resolve_left (Ne.symm last))]
      · rw [if_pos heads] at same
        have bytes : (one.headD 0).toNat = y.toNat := by omega
        exact absurd (UInt8.toNat_inj.mp bytes) heads

end same

-- What is asked of the table: after any insertions, the RIDs of the tuples that are the same as the
-- key, each as often as it was inserted.
def LooksUp (HTSIZE : Int) (attr : AttrDesc) (entries : List (RID × List UInt8)) (key : List UInt8) : Prop :=
  ∃ t outRids, inserts entries (construct HTSIZE attr) = .ok t ∧ t.lookup key = .ok (.ok,outRids) ∧
    outRids.Perm ((entries.filter fun e => Same attr (attrOf attr e) key).map Prod.fst)

-- When it does: the strings end somewhere; a string that fills the attribute is followed by bytes
-- that lead to the chain of the key; and the counter of that chain, an int, has not gone below
-- what there is to find.
structure Together (HTSIZE : Int) (attr : AttrDesc) (entries : List (RID × List UInt8)) (key : List UInt8) : Prop where
  ended : attr.attrType = 0 → 0 ∈ key ∧ ∀ e ∈ entries, 0 ∈ attrOf attr e
  followed : attr.attrType = 0 → 0 ∉ key.take attr.attrLen.toNat →
    ∀ e ∈ entries, Same attr (attrOf attr e) key → chainOfString HTSIZE (attrOf attr e) = chainOfString HTSIZE key
  counted : ((entries.filter fun e => Same attr (attrOf attr e) key).length : Int) ≤
    wrap (onChain HTSIZE attr entries (chainOf HTSIZE attr key)).length

-- Where all that are the same as the key are on its chain.
theorem hits_all (all : ∀ e ∈ entries, Same attr (attrOf attr e) key → chainOf HTSIZE attr (attrOf attr e) =
    chainOf HTSIZE attr key) :
    hits HTSIZE attr entries key = entries.filter fun e => Same attr (attrOf attr e) key := by
  unfold hits onChain
  rw [List.filter_filter]
  refine List.filter_congr fun e member => ?_
  by_cases same : Same attr (attrOf attr e) key
  · simp [same,all e member same]
  · simp [same]

theorem hits_most (most : (entries.filter fun e => Same attr (attrOf attr e) key).length ≤
    (hits HTSIZE attr entries key).length) :
    ∀ e ∈ entries, Same attr (attrOf attr e) key → chainOf HTSIZE attr (attrOf attr e) = chainOf HTSIZE attr key := by
  have inside : (hits HTSIZE attr entries key).Sublist (entries.filter fun e => Same attr (attrOf attr e) key) :=
    List.filter_sublist.filter _
  have all := inside.eq_of_length_le most
  intro e member same
  have here : e ∈ hits HTSIZE attr entries key := by
    rw [all]
    exact List.mem_filter.mpr ⟨member,decide_eq_true same⟩
  exact of_decide_eq_true (List.mem_filter.mp (List.mem_filter.mp here).1).2

-- A tuple has its attribute in it, and an int takes four bytes.
structure Stored (attr : AttrDesc) (memory : List UInt8) : Prop where
  long : attr.attrLen.toNat ≤ memory.length
  four : attr.attrType = 1 → attr.attrLen = 4

theorem Stored.readable (stored : Stored attr memory) (ended : attr.attrType = 0 → 0 ∈ memory) (typed : Typed attr) :
    Readable attr memory := by
  unfold Readable
  rcases typed with string | int
  · rw [if_neg (by omega)]
    exact ⟨stored.long,ended string⟩
  · rw [if_pos int]
    have four := stored.four int
    have long := stored.long
    omega

theorem same_chain (typed : Typed attr) (together : attr.attrType = 0 → 0 ∉ key.take attr.attrLen.toNat →
      ∀ e ∈ entries, Same attr (attrOf attr e) key → chainOfString HTSIZE (attrOf attr e) = chainOfString HTSIZE key)
    {e : RID × List UInt8} (member : e ∈ entries) (same : Same attr (attrOf attr e) key) :
    chainOf HTSIZE attr (attrOf attr e) = chainOf HTSIZE attr key := by
  have same' := same
  unfold Same at same
  unfold chainOf
  rcases typed with string | int
  · have other : ¬ attr.attrType = 1 := by omega
    rw [if_neg other,strncmp_take] at same
    rw [if_neg other,if_neg other]
    by_cases within : 0 ∈ key.take attr.attrLen.toNat
    · rw [chainOfString,chainOfString,strncmp_ended same within]
    · exact together string within e member same'
  · rw [if_pos int] at same
    rw [if_pos int,if_pos int,chainOfInt,chainOfInt,same]

-- The lookup is exact for ints. For strings it is where those that fill the attribute are followed
-- by bytes that lead to one chain.
theorem lookup_exact_iff (HTSIZE : Int) (positive : 1 ≤ HTSIZE) (attr : AttrDesc) (typed : Typed attr)
    (entries : List (RID × List UInt8))
    (key : List UInt8) (stored : ∀ e ∈ entries, Stored attr (attrOf attr e)) (asked : Stored attr key) :
    LooksUp HTSIZE attr entries key ↔ Together HTSIZE attr entries key := by
  constructor
  · rintro ⟨t,outRids,inserted,looked,perm⟩
    have ended : attr.attrType = 0 → 0 ∈ key ∧ ∀ e ∈ entries, 0 ∈ attrOf attr e := by
      intro string
      obtain ⟨same,all⟩ := inserts_ended inserted
      exact ⟨lookup_ended looked (by rw [same]; exact string),all string⟩
    have readable := asked.readable (fun string => (ended string).1) typed
    obtain ⟨t',inserted',filled⟩ := inserts_spec positive typed (construct_filled HTSIZE attr) fun e member =>
      (stored e member).readable (fun string => (ended string).2 e member) typed
    cases Except.ok.inj (inserted.symm.trans inserted')
    rw [lookup_spec positive typed filled readable] at looked
    split at looked
    · rename_i counted
      cases looked
      have lengths := perm.length_eq
      rw [List.length_reverse,List.length_map,List.length_map] at lengths
      have all := hits_most (Nat.le_of_eq lengths.symm)
      refine ⟨ended,fun string _ e member same => ?_,by rw [← lengths]; exact counted⟩
      have here := all e member same
      unfold chainOf at here
      rw [if_neg (by omega),if_neg (by omega)] at here
      exact here
    · split at looked <;> cases looked
  · intro together
    have readable := asked.readable (fun string => (together.ended string).1) typed
    obtain ⟨t,inserted,filled⟩ := inserts_spec positive typed (construct_filled HTSIZE attr) fun e member =>
      (stored e member).readable (fun string => (together.ended string).2 e member) typed
    have all := hits_all fun e member same => same_chain typed together.followed member same
    have looked := lookup_spec positive typed filled readable
    rw [List.nil_append,all,if_pos together.counted] at looked
    exact ⟨t,_,inserted,looked,List.reverse_perm _⟩

-- A string of four chars with an int behind it in the tuple.
def sampleAttr : AttrDesc := ⟨[82],[97],0,0,4⟩

theorem lookup_exact_iff_sample : LooksUp 7 sampleAttr
    [(⟨1,0⟩,[97,98,0,0,1,0,0,0]),(⟨1,1⟩,[99,100,0,0,2,0,0,0]),(⟨1,2⟩,[97,98,0,5,3,0,0,0])] [97,98,0,9] := by
  have stored : ∀ e ∈ [((⟨1,0⟩ : RID),([97,98,0,0,1,0,0,0] : List UInt8)),(⟨1,1⟩,[99,100,0,0,2,0,0,0]),
    (⟨1,2⟩,[97,98,0,5,3,0,0,0])],
      Stored sampleAttr (attrOf sampleAttr e) := by
    intro e member
    refine ⟨?_,fun int => by cases int⟩
    revert e
    decide
  have ended : sampleAttr.attrType = 0 → 0 ∈ ([97,98,0,9] : List UInt8) ∧
      ∀ e ∈ [((⟨1,0⟩ : RID),([97,98,0,0,1,0,0,0] : List UInt8)),(⟨1,1⟩,[99,100,0,0,2,0,0,0]),
        (⟨1,2⟩,[97,98,0,5,3,0,0,0])],
        0 ∈ attrOf sampleAttr e := by decide
  exact (lookup_exact_iff 7 (by decide) sampleAttr (.inl rfl) _ [97,98,0,9] stored
    ⟨by decide,fun int => by cases int⟩).mpr
    ⟨ended,fun _ unended => absurd (by decide) unended,by decide⟩

-- The chars fill the attribute, and the key is followed by other bytes than the tuple.
theorem full_string_missed :
    (do
      let t ← inserts [(⟨1,0⟩,[97,98,99,100,1,0,0,0])] (construct 7 sampleAttr)
      t.lookup [97,98,99,100,0]) = .ok (.ok,[]) ∧ Same sampleAttr [97,98,99,100,1,0,0,0] [97,98,99,100,0] ∧
    ¬ LooksUp 7 sampleAttr [(⟨1,0⟩,[97,98,99,100,1,0,0,0])] [97,98,99,100,0] := by
  have missed : (do
      let t ← inserts [(⟨1,0⟩,[97,98,99,100,1,0,0,0])] (construct 7 sampleAttr)
      t.lookup [97,98,99,100,0]) = .ok (.ok,[]) := by rfl
  refine ⟨missed,by decide,?_⟩
  rintro ⟨t,outRids,inserted,looked,perm⟩
  rw [inserted,ok_bind,looked] at missed
  cases missed
  exact absurd perm.length_eq (by decide)

end JoinHashTbl
end Minirel
