import Mathlib.Data.List.Basic
import Mathlib.Data.List.Nodup
import Mathlib.Data.List.Perm.Subperm

namespace LinkedNodes

-- Nodes on the heap, each with what it holds and a pointer to the next one; none is NULL.
abbrev Addr := Nat

structure Node (α : Type) where
  item : α
  next : Option Addr

abbrev Memory (α : Type) := List (Addr × Node α)

inductive Fault where
  | badPointer | endless
  deriving DecidableEq,Repr

theorem ok_bind {β γ : Type} (b : β) (f : β → Except Fault γ) : (Except.ok b >>= f) = f b := rfl

variable {α : Type} {m m' : Memory α} {a b : Addr} {n : Node α}

def get : Memory α → Addr → Option (Node α)
  | [],_ => none
  | (b,n)::rest,a => if b = a then some n else get rest a

def set (m : Memory α) (a : Addr) (n : Node α) : Memory α := (a,n)::m

def free (m : Memory α) (a : Addr) : Memory α := m.filter fun cell => cell.1 ≠ a

-- What new may return.
structure Allocator (α : Type) where
  pick : Memory α → Addr
  fresh : ∀ m, get m (pick m) = none

@[simp] theorem get_set (m : Memory α) (a b : Addr) (n : Node α) :
    get (set m a n) b = if b = a then some n else get m b := by
  by_cases same : b = a
  · rw [if_pos same,set,get,if_pos same.symm]
  · rw [if_neg same,set,get,if_neg (Ne.symm same)]

@[simp] theorem get_free (m : Memory α) (a b : Addr) : get (free m a) b = if b = a then none else get m b := by
  induction m with
  | nil => simp [free,get]
  | cons cell rest ih =>
    obtain ⟨c,n⟩ := cell
    rw [free] at ih ⊢
    by_cases gone : c = a
    · subst c
      rw [List.filter_cons_of_neg (by simp),ih,get]
      by_cases same : b = a
      · rw [if_pos same,if_pos same]
      · rw [if_neg same,if_neg same,if_neg (Ne.symm same)]
    · rw [List.filter_cons_of_pos (by simpa using gone),get,ih,get]
      by_cases same : c = b
      · subst c
        rw [if_pos rfl,if_pos rfl,if_neg gone]
      · rw [if_neg same,if_neg same]

theorem get_some_mem (found : get m a = some n) : a ∈ m.map Prod.fst := by
  induction m with
  | nil => cases found
  | cons cell rest ih =>
    rw [get] at found
    split at found
    · rename_i same
      exact List.mem_cons.mpr (.inl same.symm)
    · exact List.mem_cons_of_mem _ (ih found)

-- The pointer start leads over the nodes of l to stop.
def Segment (m : Memory α) : Option Addr → List (Addr × α) → Option Addr → Prop
  | start,[],stop => start = stop
  | start,(a,x)::rest,stop => start = some a ∧ ∃ next, get m a = some ⟨x,next⟩ ∧ Segment m next rest stop

abbrev Chain (m : Memory α) (start : Option Addr) (l : List (Addr × α)) : Prop := Segment m start l none

def addrs (l : List (Addr × α)) : List Addr := l.map Prod.fst

variable {start stop prev : Option Addr} {l before after : List (Addr × α)} {x y : α} {p : α → Bool}

theorem Segment.congr (segment : Segment m start l stop) (same : ∀ a ∈ addrs l, get m' a = get m a) :
    Segment m' start l stop := by
  induction l generalizing start with
  | nil => exact segment
  | cons e rest ih =>
    obtain ⟨a,x⟩ := e
    obtain ⟨here,next,found,tail⟩ := segment
    exact ⟨here,next,(same a List.mem_cons_self).trans found,ih tail fun b member =>
      same b (List.mem_cons_of_mem _ member)⟩

theorem segment_append : Segment m start (before ++ after) stop ↔ ∃ middle, Segment m start before middle ∧
    Segment m middle after stop := by
  induction before generalizing start with
  | nil =>
    constructor
    · intro segment
      exact ⟨start,rfl,segment⟩
    · intro split
      obtain ⟨middle,same,segment⟩ := split
      rw [show start = middle from same]
      exact segment
  | cons e rest ih =>
    obtain ⟨a,x⟩ := e
    constructor
    · intro segment
      obtain ⟨here,next,found,tail⟩ := segment
      obtain ⟨middle,first,second⟩ := ih.mp tail
      exact ⟨middle,⟨here,next,found,first⟩,second⟩
    · intro split
      obtain ⟨middle,⟨here,next,found,first⟩,second⟩ := split
      exact ⟨here,next,found,ih.mpr ⟨middle,first,second⟩⟩

theorem Segment.found (segment : Segment m start l stop) (member : (a,x) ∈ l) : ∃ next, get m a = some ⟨x,next⟩ := by
  obtain ⟨before,after,rfl⟩ := List.append_of_mem member
  obtain ⟨middle,_,_,next,found,_⟩ := segment_append.mp segment
  exact ⟨next,found⟩

theorem Segment.starts (segment : Segment m start l stop) (some_node : l ≠ []) : ∃ a ∈ addrs l, start = some a := by
  cases l with
  | nil => exact absurd rfl some_node
  | cons e rest => exact ⟨e.1,List.mem_cons_self,segment.1⟩

-- A chain has no more nodes than the heap, so that many turns are enough to walk along it.
theorem Segment.length_le (segment : Segment m start l stop) (nodup : (addrs l).Nodup) : l.length ≤ m.length := by
  have inside : addrs l ⊆ m.map Prod.fst := by
    intro a member
    obtain ⟨⟨_,x⟩,listed,rfl⟩ := List.mem_map.mp member
    obtain ⟨next,found⟩ := segment.found listed
    exact get_some_mem found
  have shorter := (List.subperm_of_subset nodup inside).length_le
  rwa [addrs,List.length_map,List.length_map] at shorter

-- while (cur) { if (p(*cur)) break; cur = cur->next; }
def search (p : α → Bool) (m : Memory α) : Nat → Option Addr → Except Fault (Option (Node α))
  | _,none => .ok none
  | 0,some _ => .error .endless
  | turns+1,some a =>
    match get m a with
    | none => .error .badPointer
    | some n => if p n.item then .ok (some n) else search p m turns n.next

-- The same, with a pointer that trails behind.
def seek (p : α → Bool) (m : Memory α) : Nat → Option Addr → Option Addr →
    Except Fault (Option (Option Addr × Addr × Node α))
  | _,_,none => .ok none
  | 0,_,some _ => .error .endless
  | turns+1,prev,some a =>
    match get m a with
    | none => .error .badPointer
    | some n => if p n.item then .ok (some (prev,a,n)) else seek p m turns (some a) n.next

-- p->next = next
def setNext (m : Memory α) (p next : Option Addr) : Except Fault (Memory α) :=
  match p with
  | none => .error .badPointer
  | some a =>
    match get m a with
    | none => .error .badPointer
    | some n => .ok (set m a ⟨n.item,next⟩)

theorem search_spec (chain : Chain m start l) {turns : Nat} (enough : l.length ≤ turns) :
    ∃ found, search p m turns start = .ok found ∧ found.map Node.item = (l.map Prod.snd).find? p := by
  induction l generalizing start turns with
  | nil =>
    obtain rfl : start = none := chain
    cases turns <;> exact ⟨none,rfl,rfl⟩
  | cons e rest ih =>
    obtain ⟨a,x⟩ := e
    obtain ⟨rfl,next,found,tail⟩ := chain
    cases turns with
    | zero => cases enough
    | succ turns =>
      rw [search,found,List.map_cons]
      dsimp only
      by_cases judged : p x = true
      · rw [if_pos judged,List.find?_cons_of_pos judged]
        exact ⟨_,rfl,rfl⟩
      · rw [if_neg judged,List.find?_cons_of_neg judged]
        exact ih tail (Nat.le_of_succ_le_succ enough)

theorem seek_missing (chain : Chain m start l) {turns : Nat} (enough : l.length ≤ turns)
    (missing : ∀ e ∈ l, p e.2 = false) :
    seek p m turns prev start = .ok none := by
  induction l generalizing start turns prev with
  | nil =>
    obtain rfl : start = none := chain
    cases turns <;> rfl
  | cons e rest ih =>
    obtain ⟨a,x⟩ := e
    obtain ⟨rfl,next,found,tail⟩ := chain
    cases turns with
    | zero => cases enough
    | succ turns =>
      have other := missing (a,x) List.mem_cons_self
      rw [seek,found]
      dsimp only at other ⊢
      rw [other,if_neg Bool.false_ne_true]
      exact ih tail (Nat.le_of_succ_le_succ enough) fun e member => missing e (List.mem_cons_of_mem _ member)

-- The trailing pointer is at the last node before the one that is found.
theorem seek_found (segment : Segment m start before (some a)) (found : get m a = some n) {turns : Nat}
    (enough : before.length < turns)
    (missing : ∀ e ∈ before, p e.2 = false) (judged : p n.item = true) :
    seek p m turns prev start = .ok (some (before.getLast?.elim prev fun e => some e.1,a,n)) := by
  induction before generalizing start turns prev with
  | nil =>
    obtain rfl : start = some a := segment
    cases turns with
    | zero => cases enough
    | succ turns =>
      rw [seek,found]
      dsimp only
      rw [if_pos judged]
      rfl
  | cons e rest ih =>
    obtain ⟨b,y⟩ := e
    obtain ⟨rfl,next,here,tail⟩ := segment
    cases turns with
    | zero => cases enough
    | succ turns =>
      have other := missing (b,y) List.mem_cons_self
      rw [seek,here]
      dsimp only at other ⊢
      rw [other,if_neg Bool.false_ne_true,ih tail (Nat.lt_of_succ_lt_succ enough) fun e member =>
        missing e (List.mem_cons_of_mem _ member)]
      cases rest with
      | nil => rfl
      | cons c more =>
        rw [List.getLast?_cons_cons,List.getLast?_eq_some_getLast (List.cons_ne_nil c more)]
        rfl

-- A new node in front.
theorem Segment.push (segment : Segment m start l stop) (fresh : get m a = none) (x : α) :
    Segment (set m a ⟨x,start⟩) (some a) ((a,x)::l) stop := by
  refine ⟨rfl,start,by simp,segment.congr fun b member => ?_⟩
  obtain ⟨⟨_,y⟩,listed,rfl⟩ := List.mem_map.mp member
  obtain ⟨next,found⟩ := segment.found listed
  rw [get_set,if_neg]
  intro same
  dsimp only at same found
  rw [same,fresh] at found
  cases found

-- Taking out the first node.
theorem Segment.drop_first (segment : Segment m start ((a,x)::l) stop) (nodup : (addrs ((a,x)::l)).Nodup) :
    ∃ next, get m a = some ⟨x,next⟩ ∧ Segment (free m a) next l stop := by
  obtain ⟨_,next,found,tail⟩ := segment
  refine ⟨next,found,tail.congr fun b member => ?_⟩
  rw [get_free,if_neg]
  intro same
  exact (List.nodup_cons.mp nodup).1 (same ▸ member)

-- Taking out a later one: the node before it gets its pointer.
theorem Segment.bypass (segment : Segment m start (before ++ (b,y)::(a,x)::after) stop)
    (nodup : (addrs (before ++ (b,y)::(a,x)::after)).Nodup) :
    ∃ next, get m b = some ⟨y,some a⟩ ∧ get m a = some ⟨x,next⟩ ∧
      Segment (free (set m b ⟨y,next⟩) a) start (before ++ (b,y)::after) stop := by
  obtain ⟨middle,first,rfl,_,found_b,rfl,next,found_a,tail⟩ := segment_append.mp segment
  rw [addrs,List.map_append,List.map_cons,List.map_cons,List.nodup_append] at nodup
  obtain ⟨_,later,apart⟩ := nodup
  obtain ⟨not_b,later⟩ := List.nodup_cons.mp later
  obtain ⟨not_a,_⟩ := List.nodup_cons.mp later
  have a_b : b ≠ a := fun same => not_b (same ▸ List.mem_cons_self)
  have elsewhere : ∀ c, c ≠ a → c ≠ b → get (free (set m b ⟨y,next⟩) a) c = get m c := by
    intro c other_a other_b
    rw [get_free,if_neg other_a,get_set,if_neg other_b]
  refine ⟨next,found_b,found_a,segment_append.mpr ⟨some b,first.congr fun c member =>
    ?_,rfl,next,?_,tail.congr fun c member => ?_⟩⟩
  · exact elsewhere c (apart c member a (List.mem_cons_of_mem _ List.mem_cons_self))
      (apart c member b List.mem_cons_self)
  · rw [get_free,if_neg a_b,get_set,if_pos rfl]
  · exact elsewhere c (fun same => not_a (same ▸ member)) (fun same => not_b (same ▸ List.mem_cons_of_mem _ member))

-- An allocator: one behind the highest address.
def Allocator.bump (α : Type) : Allocator α where
  pick m := (m.map Prod.fst).foldr max 0 + 1
  fresh m := by
    have high : ∀ (l : List Addr), ∀ a ∈ l, a ≤ l.foldr max 0 := by
      intro l
      induction l with
      | nil => exact fun a member => absurd member List.not_mem_nil
      | cons b rest ih =>
        intro a member
        rw [List.foldr_cons]
        rcases List.mem_cons.mp member with rfl | later
        · exact Nat.le_max_left _ _
        · exact Nat.le_trans (ih a later) (Nat.le_max_right _ _)
    cases found : get m ((m.map Prod.fst).foldr max 0 + 1) with
    | none => rfl
    | some n => exact absurd (high _ _ (get_some_mem found)) (Nat.not_succ_le_self _)

end LinkedNodes
