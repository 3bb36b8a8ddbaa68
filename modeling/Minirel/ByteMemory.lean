import Mathlib.Data.List.Basic
import Mathlib.Data.Int.ModEq
import Mathlib.Tactic.Ring
import Mathlib.Tactic.Linarith

namespace ByteMemory

-- A fixed block of bytes addressed by integers. An address outside the block
-- reads as zero and a store outside it is dropped; no layer above relies on it.
abbrev Block (n : Nat) := Fin n → UInt8

variable {n : Nat}

def get (m : Block n) (a : Int) : UInt8 :=
  if inside : 0 ≤ a ∧ a < n then m ⟨a.toNat,by omega⟩ else 0

def load (m : Block n) (a : Int) (count : Nat) : List UInt8 :=
  (List.range count).map fun j : Nat => get m (a + j)

def store (m : Block n) (a : Int) (bytes : List UInt8) : Block n := fun i =>
  if a ≤ i ∧ (i : Int) < a + bytes.length then bytes.getD (i - a).toNat 0 else m i

def zero (n : Nat) : Block n := fun _ => 0

@[simp] theorem get_zero (a : Int) : get (zero n) a = 0 := by
  unfold get zero; split <;> rfl

theorem get_store (m : Block n) (a b : Int) (bytes : List UInt8) :
    get (store m a bytes) b =
      if (0 ≤ b ∧ b < n) ∧ a ≤ b ∧ b < a + bytes.length then bytes.getD (b - a).toNat 0
      else get m b := by
  unfold get store
  by_cases inside : 0 ≤ b ∧ b < n
  · have same : ((b.toNat : Nat) : Int) = b := Int.toNat_of_nonneg inside.1
    simp only [inside,and_self,dite_true,true_and,same]
  · simp [inside]

theorem get_store_outside {m : Block n} {a b : Int} {bytes : List UInt8}
    (apart : b < a ∨ a + bytes.length ≤ b) : get (store m a bytes) b = get m b := by
  rw [get_store,if_neg (by omega)]

theorem block_ext {m m' : Block n} (same : ∀ a : Int, 0 ≤ a → a < n → get m a = get m' a) : m = m' := by
  funext i
  have here := same i (by omega) (by omega)
  unfold get at here
  rw [dif_pos ⟨by omega,by omega⟩,dif_pos ⟨by omega,by omega⟩] at here
  exact here

@[simp] theorem length_load (m : Block n) (a : Int) (count : Nat) : (load m a count).length = count := by
  simp [load]

@[simp] theorem load_none (m : Block n) (a : Int) : load m a 0 = [] := rfl

theorem getElem_load (m : Block n) (a : Int) (count j : Nat) (bound : j < (load m a count).length) :
    (load m a count)[j] = get m (a + j) := by
  simp [load]

-- Two loads agree when the bytes under them do; every frame fact is a case of it.
theorem load_congr {m m' : Block n} {a a' : Int} {count : Nat}
    (same : ∀ j : Nat, j < count → get m (a + j) = get m' (a' + j)) : load m a count = load m' a' count := by
  unfold load
  apply List.map_congr_left
  intro j member
  exact same j (List.mem_range.mp member)

theorem load_store_apart {m : Block n} {a b : Int} {count : Nat} {bytes : List UInt8}
    (apart : b + count ≤ a ∨ a + bytes.length ≤ b) : load (store m a bytes) b count = load m b count := by
  apply load_congr
  intro j bound
  exact get_store_outside (by omega)

theorem load_store {m : Block n} {a : Int} {v : List UInt8} (low : 0 ≤ a) (high : a + v.length ≤ n) :
    load (store m a v) a v.length = v := by
  apply List.ext_getElem (by simp)
  intro j bound inside
  rw [getElem_load,get_store,if_pos (by omega)]
  simp [List.getElem?_eq_getElem inside]

theorem load_append (m : Block n) (a : Int) (left right : Nat) :
    load m a (left + right) = load m a left ++ load m (a + left) right := by
  unfold load
  rw [List.range_add,List.map_append,List.map_map]
  congr 1
  apply List.map_congr_left
  intro j _
  simp [Int.add_assoc]

-- Little-endian two's-complement words of any width.
def encode : Nat → Int → List UInt8
  | 0,_ => []
  | w+1,v => UInt8.ofNat (v % 256).toNat :: encode w (v / 256)

def unsigned : List UInt8 → Nat
  | [] => 0
  | b::rest => b.toNat + 256 * unsigned rest

def decode (bytes : List UInt8) : Int :=
  if 256 ^ bytes.length ≤ 2 * unsigned bytes then (unsigned bytes : Int) - (256 ^ bytes.length : Nat) else unsigned
    bytes

@[simp] theorem length_encode (w : Nat) (v : Int) : (encode w v).length = w := by
  induction w generalizing v with
  | zero => rfl
  | succ w ih => simp [encode,ih]

theorem unsigned_encode (w : Nat) (v : Int) : (unsigned (encode w v) : Int) = v % (256 ^ w : Nat) := by
  induction w generalizing v with
  | zero => simp [encode,unsigned]
  | succ w ih =>
    have low : 0 ≤ v % 256 := Int.emod_nonneg v (by decide)
    have high : v % 256 < 256 := Int.emod_lt_of_pos v (by decide)
    have byte : ((UInt8.ofNat (v % 256).toNat).toNat : Int) = v % 256 := by
      rw [UInt8.toNat_ofNat',Nat.mod_eq_of_lt (by omega)]
      exact Int.toNat_of_nonneg low
    have split : v % (256 ^ (w+1) : Nat) = v % 256 + 256 * (v / 256 % (256 ^ w : Nat)) := by
      have power : ((256 ^ (w+1) : Nat) : Int) = 256 * (256 ^ w : Nat) := by push_cast; ring
      rw [power,Int.emod_def v (256 * (256 ^ w : Nat)),← Int.ediv_ediv_of_nonneg (by decide),
        Int.emod_def (v / 256),Int.emod_def v 256]
      ring
    simp only [encode,unsigned,Nat.cast_add,Nat.cast_mul,byte,ih,split,Nat.cast_ofNat]

theorem decode_encode (w : Nat) (v : Int) : decode (encode w v) = Int.bmod v (256 ^ w) := by
  have raw := unsigned_encode w v
  rw [decode,length_encode,Int.bmod_def,← raw]
  by_cases negative : 256 ^ w ≤ 2 * unsigned (encode w v)
  · rw [if_pos negative,if_neg (by omega)]
  · rw [if_neg negative,if_pos (by omega)]

theorem decode_encode_small {w : Nat} {v : Int} (low : -(256 ^ w : Nat) ≤ 2 * v) (high : 2 * v < (256 ^ w : Nat)) :
    decode (encode w v) = v := by
  rw [decode_encode]
  exact Int.bmod_eq_of_le_mul_two (by omega) (by omega)

theorem unsigned_lt (bytes : List UInt8) : unsigned bytes < 256 ^ bytes.length := by
  induction bytes with
  | nil => exact Nat.one_pos
  | cons b rest ih =>
    have byte := b.toNat_lt
    rw [unsigned,List.length_cons,Nat.pow_succ]
    omega

theorem decode_bmod (bytes : List UInt8) : Int.bmod (decode bytes) (256 ^ bytes.length) = decode bytes := by
  have high := unsigned_lt bytes
  unfold decode
  split
  · exact Int.bmod_eq_of_le_mul_two (by omega) (by omega)
  · exact Int.bmod_eq_of_le_mul_two (by omega) (by omega)

def word (m : Block n) (w : Nat) (a : Int) : Int := decode (load m a w)
def setWord (m : Block n) (w : Nat) (a v : Int) : Block n := store m a (encode w v)

theorem word_bmod (m : Block n) (w : Nat) (a : Int) : Int.bmod (word m w a) (256 ^ w) = word m w a := by
  have loaded := decode_bmod (load m a w)
  rwa [length_load] at loaded

theorem word_setWord {m : Block n} {w : Nat} {a v : Int} (low : 0 ≤ a) (high : a + w ≤ n) :
    word (setWord m w a v) w a = Int.bmod v (256 ^ w) := by
  have loaded := load_store (m:=m) (v:=encode w v) low (by simpa using high)
  rw [length_encode] at loaded
  rw [word,setWord,loaded,decode_encode]

theorem word_store_apart {m : Block n} {w : Nat} {a b : Int} {bytes : List UInt8}
    (apart : b + w ≤ a ∨ a + bytes.length ≤ b) : word (store m a bytes) w b = word m w b := by
  rw [word,word,load_store_apart apart]

theorem word_setWord_apart {m : Block n} {w w' : Nat} {a b v : Int}
    (apart : b + w ≤ a ∨ a + w' ≤ b) : word (setWord m w' a v) w b = word m w b :=
  word_store_apart (by simpa using apart)

theorem load_setWord_apart {m : Block n} {w count : Nat} {a b v : Int}
    (apart : b + count ≤ a ∨ a + w ≤ b) : load (setWord m w a v) b count = load m b count :=
  load_store_apart (by simpa using apart)

end ByteMemory
