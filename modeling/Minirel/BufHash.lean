import Minirel.BufStage6
import Minirel.LinkedNodes

namespace Minirel.BufHash
open LinkedNodes

-- A hashBucket; its next is that of the node.
structure HashBucket where
  file : FileId
  pageNo : Int
  frameNo : Int
  deriving DecidableEq,Repr

-- A BufHashTbl, and the nodes that it has allocated.
structure Table where
  htSize : Int
  ht : Int → Option Addr
  memory : Memory HashBucket

def int32 (v : Int) : Int := Int.bmod v (2 ^ 32)

def hash (htSize : Int) (file : FileId) (pageNo : Int) : Int :=
  let tmp := int32 file
  int32 ((int32 ((int32 (tmp + pageNo)).tmod htSize + htSize)).tmod htSize)

def init (htSize : Int) : Table := ⟨htSize,fun _ => none,[]⟩

namespace Table

-- ht[index], inside the array only.
def bucket (t : Table) (index : Int) : Except Fault (Option Addr) :=
  if 0 ≤ index ∧ index < t.htSize then .ok (t.ht index) else .error .badPointer

end Table

-- tmpBuc->file == file && tmpBuc->pageNo == pageNo
def matching (file : FileId) (pageNo : Int) (b : HashBucket) : Bool := b.file = file ∧ b.pageNo = pageNo

-- No chain is longer than the list of nodes, which bounds the turns. new does not return NULL.
def insert (new : Allocator HashBucket) (t : Table) (file : FileId) (pageNo frameNo : Int) :
    Except Fault (Status × Table) := do
  let index := hash t.htSize file pageNo
  let head ← t.bucket index
  match ← search (matching file pageNo) t.memory t.memory.length head with
  | some _ => return (.hashTblError,t)
  | none =>
    let tmpBuc := new.pick t.memory
    return (.ok,{t with memory := set t.memory tmpBuc ⟨⟨file,pageNo,frameNo⟩,head⟩, ht := Function.update t.ht index (some tmpBuc)})

-- frameNo is passed by reference.
def lookup (t : Table) (file : FileId) (pageNo frameNo : Int) : Except Fault (Status × Int) := do
  let index := hash t.htSize file pageNo
  let head ← t.bucket index
  match ← search (matching file pageNo) t.memory t.memory.length head with
  | some tmpBuc => return (.ok,tmpBuc.item.frameNo)
  | none => return (.hashNotFound,frameNo)

def remove (t : Table) (file : FileId) (pageNo : Int) : Except Fault (Status × Table) := do
  let index := hash t.htSize file pageNo
  let head ← t.bucket index
  match ← seek (matching file pageNo) t.memory t.memory.length head head with
  | some (prevBuc,tmpBuc,node) =>
    if head = some tmpBuc then
      return (.ok,{t with ht := Function.update t.ht index node.next, memory := free t.memory tmpBuc})
    else
      let memory ← setNext t.memory prevBuc node.next
      return (.ok,{t with memory := free memory tmpBuc})
  | none => return (.hashTblError,t)

-- The int arithmetic stays in range up to 2^30 chains, and gives the number of a chain.
theorem hash_eq {htSize : Nat} (positive : 1 ≤ htSize) (small : htSize ≤ 2 ^ 30) (file : FileId) (pageNo : Int) :
    hash htSize file pageNo = Stage6.hash htSize (file,pageNo) ∧ Stage6.hash htSize (file,pageNo) < htSize := by
  have size : (0 : Int) < htSize := by omega
  have sum : int32 (int32 file + pageNo) = Int.bmod ((file : Int) + pageNo) (2 ^ 32) := Int.bmod_add_bmod
  have low := Int.lt_tmod_of_pos (Int.bmod ((file : Int) + pageNo) (2 ^ 32)) size
  have high := Int.tmod_lt_of_pos (Int.bmod ((file : Int) + pageNo) (2 ^ 32)) size
  rw [hash,Stage6.hash]
  dsimp only
  rw [sum]
  generalize (Int.bmod ((file : Int) + pageNo) (2 ^ 32)).tmod htSize = rest at low high
  have inner : int32 (rest + htSize) = rest + htSize := Int.bmod_eq_of_le (by omega) (by omega)
  have nonneg : 0 ≤ (rest + htSize).tmod htSize := Int.tmod_nonneg _ (by omega)
  have below := Int.tmod_lt_of_pos (rest + htSize) size
  have outer : int32 ((rest + htSize).tmod htSize) = (rest + htSize).tmod htSize :=
    Int.bmod_eq_of_le (by omega) (by omega)
  rw [inner,outer]
  omega

-- The chains that the array leads to: no node is on two of them or twice on one.
structure Holds (t : Table) (chains : Nat → List (Addr × HashBucket)) : Prop where
  chain : ∀ i : Nat, Chain t.memory (t.ht i) (chains i)
  nodup : ∀ i, (addrs (chains i)).Nodup
  apart : ∀ i j a, i ≠ j → a ∈ addrs (chains i) → a ∉ addrs (chains j)

def entry (e : Addr × HashBucket) : (FileId × Int) × Int := ((e.2.file,e.2.pageNo),e.2.frameNo)

-- What is left when the pointers are forgotten.
def contents (chains : Nat → List (Addr × HashBucket)) :
    BucketTable.Table (FileId × Int) Int := fun i => (chains i).map entry

section chain

variable {file : FileId} {pageNo : Int} {l before after : List (Addr × HashBucket)} {a : Addr} {b : HashBucket}

theorem entry_matching (e : Addr × HashBucket) : matching file pageNo e.2 = true ↔ (entry e).1 = (file,pageNo) := by
  simp [matching,entry]

theorem find_entries : BucketTable.find (l.map entry) (file,pageNo) =
    ((l.map Prod.snd).find? (matching file pageNo)).map HashBucket.frameNo := by
  induction l with
  | nil => rfl
  | cons e rest ih =>
    rw [List.map_cons,List.map_cons,BucketTable.find]
    by_cases here : matching file pageNo e.2 = true
    · rw [if_pos ((entry_matching e).mp here),List.find?_cons_of_pos here]
      rfl
    · rw [if_neg fun same => here ((entry_matching e).mpr same),List.find?_cons_of_neg here,ih]

theorem find_split {f : Int} (found : BucketTable.find (l.map entry) (file,pageNo) = some f) :
    ∃ before a b after, l = before ++ (a,b)::after ∧
    matching file pageNo b = true ∧ (∀ e ∈ before, matching file pageNo e.2 = false) ∧
      BucketTable.unlink (l.map entry) (file,pageNo) = (before ++ after).map entry := by
  induction l with
  | nil => cases found
  | cons e rest ih =>
    obtain ⟨a,b⟩ := e
    rw [List.map_cons,BucketTable.find] at found
    rw [List.map_cons,BucketTable.unlink]
    by_cases here : (entry (a,b)).1 = (file,pageNo)
    · rw [if_pos here]
      exact ⟨[],a,b,rest,rfl,(entry_matching (a,b)).mpr here,fun e member => absurd member List.not_mem_nil,rfl⟩
    · rw [if_neg here] at found ⊢
      obtain ⟨before,a',b',after,rfl,judged,missing,unlinked⟩ := ih found
      have other : matching file pageNo b = false := Bool.eq_false_iff.mpr fun judged =>
        here ((entry_matching (a,b)).mp judged)
      exact ⟨(a,b)::before,a',b',after,rfl,judged,List.forall_mem_cons.mpr ⟨other,missing⟩,by rw [unlinked]; rfl⟩

theorem find_missing (missing : BucketTable.find (l.map entry) (file,pageNo) = none) :
    ∀ e ∈ l, matching file pageNo e.2 = false := by
  intro e member
  refine Bool.eq_false_iff.mpr fun judged => BucketTable.find_none.mp missing ?_
  rw [List.map_map]
  exact List.mem_map.mpr ⟨e,member,(entry_matching e).mp judged⟩

end chain

section calls

variable {t : Table} {size : Nat} {chains : Nat → List (Addr × HashBucket)} {new : Allocator HashBucket}

theorem Holds.turns (holds : Holds t chains) (i : Nat) : (chains i).length ≤ t.memory.length :=
  (holds.chain i).length_le (holds.nodup i)

theorem Holds.fresh (holds : Holds t chains) (new : Allocator HashBucket) (i : Nat) :
    new.pick t.memory ∉ addrs (chains i) := by
  intro member
  obtain ⟨⟨_,b⟩,listed,same⟩ := List.mem_map.mp member
  obtain ⟨next,found⟩ := (holds.chain i).found listed
  dsimp only at same
  rw [same,new.fresh] at found
  cases found

-- The head of the chain that a key belongs to.
theorem bucket_hash (positive : 1 ≤ size) (small : size ≤ 2 ^ 30) (sized : t.htSize = size) (file : FileId)
    (pageNo : Int) :
    t.bucket (hash t.htSize file pageNo) = .ok (t.ht (Stage6.hash size (file,pageNo))) := by
  obtain ⟨same,below⟩ := hash_eq positive small file pageNo
  rw [sized,same,Table.bucket,sized,if_pos]
  omega

-- One chain changes, to nodes that no other chain has, and the cells of the others stay.
theorem Holds.change (holds : Holds t chains) {i : Nat} {start : Option Addr} {l : List (Addr × HashBucket)}
    {memory : Memory HashBucket}
    (chain : Chain memory start l) (nodup : (addrs l).Nodup) (own : ∀ a ∈ addrs l, ∀ j, j ≠ i → a ∉ addrs (chains j))
    (same : ∀ j, j ≠ i → ∀ a ∈ addrs (chains j), get memory a = get t.memory a) :
    Holds {t with memory := memory, ht := Function.update t.ht (i : Int) start} (Function.update chains i l) := by
  refine ⟨fun j => ?_,fun j => ?_,fun j k a other one => ?_⟩
  · by_cases here : j = i
    · subst j
      dsimp only
      rw [Function.update_self,Function.update_self]
      exact chain
    · dsimp only
      rw [Function.update_of_ne here,Function.update_of_ne (by omega)]
      exact (holds.chain j).congr (same j here)
  · by_cases here : j = i
    · subst j
      rw [Function.update_self]
      exact nodup
    · rw [Function.update_of_ne here]
      exact holds.nodup j
  · by_cases here : j = i
    · subst j
      rw [Function.update_self] at one
      rw [Function.update_of_ne (Ne.symm other)]
      exact own a one k (Ne.symm other)
    · rw [Function.update_of_ne here] at one
      by_cases there : k = i
      · subst k
        rw [Function.update_self]
        exact fun member => own a member j here one
      · rw [Function.update_of_ne there]
        exact holds.apart j k a other one

theorem contents_update (chains : Nat → List (Addr × HashBucket)) (i : Nat) (l : List (Addr × HashBucket)) :
    contents (Function.update chains i l) = fun j => if j = i then l.map entry else contents chains j := by
  funext j
  rw [contents]
  by_cases here : j = i
  · subst j
    rw [Function.update_self,if_pos rfl]
  · rw [Function.update_of_ne here,if_neg here]
    rfl

variable (positive : 1 ≤ size) (small : size ≤ 2 ^ 30)
include positive small

theorem lookup_spec (holds : Holds t chains) (sized : t.htSize = size) (file : FileId) (pageNo frameNo : Int) :
    lookup t file pageNo frameNo = .ok (match BucketTable.lookup (Stage6.hash size) (contents chains) (file,pageNo) with
      | some f => (.ok,f)
      | none => (.hashNotFound,frameNo)) := by
  obtain ⟨found,run,same⟩ := search_spec (p:=matching file pageNo) (holds.chain _)
    (holds.turns (Stage6.hash size (file,pageNo)))
  have answer : BucketTable.lookup (Stage6.hash size) (contents chains) (file,pageNo) = found.map fun n =>
      n.item.frameNo := by
    rw [BucketTable.lookup,contents,find_entries,← same,Option.map_map]
    rfl
  rw [answer,lookup]
  rw [bucket_hash positive small sized,LinkedNodes.ok_bind,run,LinkedNodes.ok_bind]
  cases found <;> rfl

theorem insert_spec (holds : Holds t chains) (sized : t.htSize = size) (new : Allocator HashBucket)
    (file : FileId) (pageNo frameNo : Int) :
    match BucketTable.insert (Stage6.hash size) (contents chains) (file,pageNo) frameNo with
      | none => insert new t file pageNo frameNo = .ok (.hashTblError,t)
      | some after =>
        ∃ t' chains', insert new t file pageNo frameNo = .ok (.ok,t') ∧ t'.htSize = size ∧ Holds t' chains' ∧
          contents chains' = after := by
  obtain ⟨found,run,same⟩ := search_spec (p:=matching file pageNo) (holds.chain _)
    (holds.turns (Stage6.hash size (file,pageNo)))
  have answer : BucketTable.lookup (Stage6.hash size) (contents chains) (file,pageNo) = found.map fun n =>
      n.item.frameNo := by
    rw [BucketTable.lookup,contents,find_entries,← same,Option.map_map]
    rfl
  rw [BucketTable.insert,answer,insert]
  rw [bucket_hash positive small sized,LinkedNodes.ok_bind,run,LinkedNodes.ok_bind]
  cases found with
  | some n => rfl
  | none =>
    have pushed := (holds.chain (Stage6.hash size (file,pageNo))).push (new.fresh t.memory) ⟨file,pageNo,frameNo⟩
    have fresh := holds.fresh new
    have index := (hash_eq positive small file pageNo).1
    have own : ∀ a ∈ addrs ((new.pick t.memory,⟨file,pageNo,frameNo⟩)::chains (Stage6.hash size (file,pageNo))),
      ∀ j, j ≠ Stage6.hash size (file,pageNo) →
        a ∉ addrs (chains j) := by
      intro a member j other
      rcases List.mem_cons.mp member with rfl | old
      · exact fresh j
      · exact holds.apart _ j a (Ne.symm other) old
    have elsewhere : ∀ j, j ≠ Stage6.hash size (file,pageNo) → ∀ a ∈ addrs (chains j),
        get (set t.memory (new.pick t.memory) ⟨⟨file,pageNo,frameNo⟩,t.ht (Stage6.hash size (file,pageNo))⟩) a =
          get t.memory a := by
      intro j _ a member
      rw [get_set,if_neg]
      exact fun same => fresh j (same ▸ member)
    have held := holds.change pushed (List.nodup_cons.mpr ⟨fresh _,holds.nodup _⟩) own elsewhere
    refine ⟨_,_,?_,?_,held,?_⟩
    · rw [sized,index]
      rfl
    · exact sized
    rw [contents_update]
    funext i
    by_cases here : i = Stage6.hash size (file,pageNo)
    · subst i
      rw [if_pos rfl,if_pos rfl]
      rfl
    · rw [if_neg here,if_neg here]

theorem remove_spec (holds : Holds t chains) (sized : t.htSize = size) (file : FileId) (pageNo : Int) :
    match BucketTable.remove (Stage6.hash size) (contents chains) (file,pageNo) with
      | none => remove t file pageNo = .ok (.hashTblError,t)
      | some after =>
        ∃ t' chains', remove t file pageNo = .ok (.ok,t') ∧ t'.htSize = size ∧ Holds t' chains' ∧
          contents chains' = after := by
  have index := (hash_eq positive small file pageNo).1
  have head := bucket_hash positive small sized file pageNo
  have turns := holds.turns (Stage6.hash size (file,pageNo))
  have chain := holds.chain (Stage6.hash size (file,pageNo))
  have nodup := holds.nodup (Stage6.hash size (file,pageNo))
  rw [BucketTable.remove,remove,head,LinkedNodes.ok_bind]
  cases found : BucketTable.lookup (Stage6.hash size) (contents chains) (file,pageNo) with
  | none =>
    rw [seek_missing chain turns (find_missing found),LinkedNodes.ok_bind]
    rfl
  | some f =>
    obtain ⟨before,a,b,after,split,judged,missing,unlinked⟩ := find_split found
    have left : (fun i => if i = Stage6.hash size (file,pageNo) then BucketTable.unlink (contents chains i)
      (file,pageNo) else contents chains i) =
        contents (Function.update chains (Stage6.hash size (file,pageNo)) (before ++ after)) := by
      rw [contents_update]
      funext i
      by_cases here : i = Stage6.hash size (file,pageNo)
      · subst i
        rw [if_pos rfl,if_pos rfl]
        exact unlinked
      · rw [if_neg here,if_neg here]
    have apart : ∀ a ∈ addrs (chains (Stage6.hash size (file,pageNo))), ∀ j, j ≠ Stage6.hash size (file,pageNo) →
        a ∉ addrs (chains j) :=
      fun a member j other => holds.apart _ j a (Ne.symm other) member
    rw [split] at chain nodup apart turns
    obtain ⟨middle,first,rfl,next,node,_⟩ := segment_append.mp chain
    have enough : before.length < t.memory.length := by
      rw [List.length_append,List.length_cons] at turns
      omega
    rw [seek_found first node enough missing judged,LinkedNodes.ok_bind]
    dsimp only
    -- The last node before it, if there is one, is where the trailing pointer is.
    rcases List.eq_nil_or_concat before with rfl | ⟨front,⟨c,y⟩,rfl⟩
    · obtain ⟨next',node',rest⟩ := chain.drop_first nodup
      rw [node'] at node
      cases node
      have at_head : t.ht (Stage6.hash size (file,pageNo)) = some a := first
      rw [if_pos at_head]
      have kept : addrs after ⊆ addrs ((a,b)::after) := List.subset_cons_self _ _
      have elsewhere : ∀ j, j ≠ Stage6.hash size (file,pageNo) →
          ∀ c ∈ addrs (chains j), get (free t.memory a) c = get t.memory c := by
        intro j other c member
        rw [get_free,if_neg]
        exact fun same => apart a List.mem_cons_self j other (same ▸ member)
      have held := holds.change rest (List.nodup_cons.mp nodup).2 (fun c member => apart c (kept member)) elsewhere
      refine ⟨_,_,?_,?_,held,left.symm⟩
      · rw [sized,index]
        rfl
      · exact sized
    · rw [List.concat_eq_append,List.append_assoc,List.singleton_append] at chain nodup apart
      obtain ⟨next',link,node',rest⟩ := chain.bypass nodup
      rw [node'] at node
      cases node
      have behind : t.ht (Stage6.hash size (file,pageNo)) ≠ some a := by
        intro at_head
        obtain ⟨d,early,start⟩ := first.starts (by simp)
        rw [at_head] at start
        cases start
        rw [← List.singleton_append,← List.append_assoc,addrs,List.map_append] at nodup
        refine (List.nodup_append.mp nodup).2.2 a ?_ a List.mem_cons_self rfl
        rwa [List.concat_eq_append] at early
      have elsewhere : ∀ j, j ≠ Stage6.hash size (file,pageNo) →
          ∀ d ∈ addrs (chains j), get (free (set t.memory c ⟨y,next⟩) a) d = get t.memory d := by
        intro j other d member
        rw [get_free,if_neg,get_set,if_neg]
        · exact fun same => apart c (by simp [addrs]) j other (same ▸ member)
        · exact fun same => apart a (by simp [addrs]) j other (same ▸ member)
      have kept : ((front ++ (c,y)::after).map Prod.fst).Sublist ((front ++ (c,y)::(a,b)::after).map Prod.fst) := by
        refine List.Sublist.map _ (List.Sublist.append_left ?_ _)
        exact (List.sublist_cons_self _ _).cons_cons _
      have held := holds.change rest (nodup.sublist kept) (fun d member => apart d (kept.subset member)) elsewhere
      rw [Function.update_eq_self] at held
      rw [if_neg behind,List.concat_eq_append,List.getLast?_concat,Option.elim_some,setNext,link,LinkedNodes.ok_bind]
      rw [List.concat_eq_append,List.append_assoc,List.singleton_append] at left
      exact ⟨_,_,rfl,sized,held,left.symm⟩

end calls

-- The pointers do what the table of the buffer manager's model does.
structure Refines (t : Table) (b : BufHashTbl) : Prop where
  sized : t.htSize = b.htSize
  chains : ∃ chains, Holds t chains ∧ contents chains = BucketTable.mapValues Int.ofNat b.ht

section refinement

variable {t : Table} {b : BufHashTbl} {new : Allocator HashBucket}

theorem init_refines (size : Nat) : Refines (init size) (.init size) :=
  ⟨rfl,fun _ => [],⟨fun _ => rfl,fun _ => List.nodup_nil,fun _ _ _ _ member => absurd member List.not_mem_nil⟩,rfl⟩

variable (positive : 1 ≤ b.htSize) (small : b.htSize ≤ 2 ^ 30)
include positive small

theorem lookup_refines (refines : Refines t b) (file : FileId) (pageNo frameNo : Int) :
    lookup t file pageNo frameNo = .ok (match b.lookup Stage6.hash file pageNo with
      | .ok i => (.ok,(i : Int))
      | .error status => (status,frameNo)) := by
  obtain ⟨sized,chains,holds,same⟩ := refines
  rw [lookup_spec positive small holds sized,same,BucketTable.lookup_map,BufHashTbl.lookup]
  cases BucketTable.lookup (Stage6.hash b.htSize) b.ht (file,pageNo) <;> rfl

theorem insert_refines (refines : Refines t b) (file : FileId) (pageNo : Int) (i : Nat) :
    ∃ t', insert new t file pageNo i = .ok ((b.insert Stage6.hash file pageNo i).1,t') ∧
      Refines t' (b.insert Stage6.hash file pageNo i).2 := by
  obtain ⟨sized,chains,holds,same⟩ := refines
  have spec := insert_spec positive small holds sized new file pageNo i
  rw [same,show (i : Int) = Int.ofNat i from rfl,BucketTable.insert_map] at spec
  rw [BufHashTbl.insert]
  cases made : BucketTable.insert (Stage6.hash b.htSize) b.ht (file,pageNo) i with
  | none =>
    rw [made] at spec
    exact ⟨t,spec,sized,chains,holds,same⟩
  | some ht =>
    rw [made] at spec
    obtain ⟨t',chains',run,sized',holds',same'⟩ := spec
    exact ⟨t',run,sized',chains',holds',same'⟩

theorem remove_refines (refines : Refines t b) (file : FileId) (pageNo : Int) :
    ∃ t', remove t file pageNo = .ok ((b.remove Stage6.hash file pageNo).1,t') ∧
      Refines t' (b.remove Stage6.hash file pageNo).2 := by
  obtain ⟨sized,chains,holds,same⟩ := refines
  have spec := remove_spec positive small holds sized file pageNo
  rw [same,BucketTable.remove_map] at spec
  rw [BufHashTbl.remove]
  cases made : BucketTable.remove (Stage6.hash b.htSize) b.ht (file,pageNo) with
  | none =>
    rw [made] at spec
    exact ⟨t,spec,sized,chains,holds,same⟩
  | some ht =>
    rw [made] at spec
    obtain ⟨t',chains',run,sized',holds',same'⟩ := spec
    exact ⟨t',run,sized',chains',holds',same'⟩

end refinement

inductive Call where
  | insert (file : FileId) (pageNo frameNo : Int)
  | lookup (file : FileId) (pageNo frameNo : Int)
  | remove (file : FileId) (pageNo : Int)
  deriving DecidableEq,Repr

-- The frame of the last insert that returned OK and was not removed since.
abbrev Known := FileId × Int → Option Int

def step (new : Allocator HashBucket) (state : Table × Known) : Call → Except Fault (Table × Known)
  | .insert file pageNo frameNo => do
    let (status,t) ← insert new state.1 file pageNo frameNo
    return (t,if status = .ok then Function.update state.2 (file,pageNo) (some frameNo) else state.2)
  | .lookup file pageNo frameNo => do
    let _ ← lookup state.1 file pageNo frameNo
    return state
  | .remove file pageNo => do
    let (status,t) ← remove state.1 file pageNo
    return (t,if status = .ok then Function.update state.2 (file,pageNo) none else state.2)

def run (new : Allocator HashBucket) : Table × Known → List Call → Except Fault (Table × Known)
  | state,[] => .ok state
  | state,call::rest => do run new (← step new state call) rest

-- Every call answers as the finite map does, and changes what it changes.
structure ActsAs (new : Allocator HashBucket) (t : Table) (known : Known) : Prop where
  hashes : ∀ file pageNo, 0 ≤ hash t.htSize file pageNo ∧ hash t.htSize file pageNo < t.htSize
  looks : ∀ file pageNo frameNo, lookup t file pageNo frameNo = .ok (match known (file,pageNo) with
    | some f => (.ok,f)
    | none => (.hashNotFound,frameNo))
  refuses : ∀ file pageNo frameNo, (known (file,pageNo)).isSome →
    insert new t file pageNo frameNo = .ok (.hashTblError,t)
  inserts : ∀ file pageNo frameNo, known (file,pageNo) = none → ∃ t', insert new t file pageNo frameNo = .ok (.ok,t') ∧
    ∀ g q f, lookup t' g q f = if (g,q) = (file,pageNo) then .ok (.ok,frameNo) else lookup t g q f
  removes : ∀ file pageNo, (known (file,pageNo)).isSome → ∃ t', remove t file pageNo = .ok (.ok,t') ∧
    ∀ g q f, lookup t' g q f = if (g,q) = (file,pageNo) then .ok (.hashNotFound,f) else lookup t g q f
  misses : ∀ file pageNo, known (file,pageNo) = none → remove t file pageNo = .ok (.hashTblError,t)

structure Tracks (size : Nat) (state : Table × Known) (chains : Nat → List (Addr × HashBucket)) : Prop where
  sized : state.1.htSize = size
  holds : Holds state.1 chains
  sound : BucketTable.Sound (contents chains)
  known : ∀ k, state.2 k = BucketTable.lookup (Stage6.hash size) (contents chains) k

section run

variable {size : Nat} {state : Table × Known} {chains : Nat → List (Addr × HashBucket)}

theorem init_tracks (size : Nat) : Tracks size (init size,fun _ => none) fun _ => [] :=
  ⟨rfl,⟨fun _ => rfl,fun _ => List.nodup_nil,fun _ _ _ _ member => absurd member List.not_mem_nil⟩,fun _ =>
    List.nodup_nil,fun _ => rfl⟩

variable (positive : 1 ≤ size) (small : size ≤ 2 ^ 30)
include positive small

theorem insert_tracks (tracks : Tracks size state chains) (new : Allocator HashBucket) (file : FileId)
    (pageNo frameNo : Int) :
    (∃ f, state.2 (file,pageNo) = some f ∧ insert new state.1 file pageNo frameNo = .ok (.hashTblError,state.1)) ∨
    state.2 (file,pageNo) = none ∧ ∃ t' chains', insert new state.1 file pageNo frameNo = .ok (.ok,t') ∧
      Tracks size (t',Function.update state.2 (file,pageNo) (some frameNo)) chains' := by
  have spec := insert_spec positive small tracks.holds tracks.sized new file pageNo frameNo
  cases there : BucketTable.lookup (Stage6.hash size) (contents chains) (file,pageNo) with
  | some f =>
    rw [BucketTable.insert_present frameNo there] at spec
    exact .inl ⟨f,(tracks.known _).trans there,spec⟩
  | none =>
    obtain ⟨ht,made⟩ := BucketTable.insert_fresh frameNo there
    rw [made] at spec
    obtain ⟨t',chains',run,sized',holds',same⟩ := spec
    refine .inr ⟨(tracks.known _).trans there,t',chains',run,sized',holds',same ▸ BucketTable.insert_sound
      tracks.sound made,fun k => ?_⟩
    rw [same,BucketTable.lookup_insert made]
    by_cases here : k = (file,pageNo)
    · rw [if_pos here,here]
      exact Function.update_self ..
    · rw [if_neg here,← tracks.known]
      exact Function.update_of_ne here ..

theorem remove_tracks (tracks : Tracks size state chains) (file : FileId) (pageNo : Int) :
    (state.2 (file,pageNo) = none ∧ remove state.1 file pageNo = .ok (.hashTblError,state.1)) ∨
    ∃ f, state.2 (file,pageNo) = some f ∧ ∃ t' chains', remove state.1 file pageNo = .ok (.ok,t') ∧
      Tracks size (t',Function.update state.2 (file,pageNo) none) chains' := by
  have spec := remove_spec positive small tracks.holds tracks.sized file pageNo
  cases there : BucketTable.lookup (Stage6.hash size) (contents chains) (file,pageNo) with
  | none =>
    rw [BucketTable.remove_missing there] at spec
    exact .inl ⟨(tracks.known _).trans there,spec⟩
  | some f =>
    obtain ⟨ht,made⟩ := BucketTable.remove_present there
    rw [made] at spec
    obtain ⟨t',chains',run,sized',holds',same⟩ := spec
    refine .inr ⟨f,(tracks.known _).trans there,t',chains',run,sized',holds',same ▸ BucketTable.remove_sound
      tracks.sound made,fun k => ?_⟩
    rw [same,BucketTable.lookup_remove tracks.sound made]
    by_cases here : k = (file,pageNo)
    · rw [if_pos here,here]
      exact Function.update_self ..
    · rw [if_neg here,← tracks.known]
      exact Function.update_of_ne here ..

theorem Tracks.looks (tracks : Tracks size state chains) (file : FileId) (pageNo frameNo : Int) :
    lookup state.1 file pageNo frameNo = .ok (match state.2 (file,pageNo) with
      | some f => (.ok,f)
      | none => (.hashNotFound,frameNo)) := by
  rw [lookup_spec positive small tracks.holds tracks.sized,tracks.known]

theorem step_tracks (tracks : Tracks size state chains) (new : Allocator HashBucket) (call : Call) :
    ∃ state' chains', step new state call = .ok state' ∧ Tracks size state' chains' := by
  obtain ⟨t,known⟩ := state
  cases call with
  | insert file pageNo frameNo =>
    rcases insert_tracks positive small tracks new file pageNo frameNo with ⟨_,_,run⟩ | ⟨_,t',chains',run,tracks'⟩
    · exact ⟨(t,known),chains,by rw [step,run]; rfl,tracks⟩
    · exact ⟨_,chains',by rw [step,run]; rfl,tracks'⟩
  | lookup file pageNo frameNo => exact ⟨(t,known),chains,by rw [step,tracks.looks positive small]; rfl,tracks⟩
  | remove file pageNo =>
    rcases remove_tracks positive small tracks file pageNo with ⟨_,run⟩ | ⟨_,_,t',chains',run,tracks'⟩
    · exact ⟨(t,known),chains,by rw [step,run]; rfl,tracks⟩
    · exact ⟨_,chains',by rw [step,run]; rfl,tracks'⟩

theorem run_tracks (tracks : Tracks size state chains) (new : Allocator HashBucket) (calls : List Call) :
    ∃ state' chains', run new state calls = .ok state' ∧ Tracks size state' chains' := by
  induction calls generalizing state chains with
  | nil => exact ⟨state,chains,rfl,tracks⟩
  | cons call rest ih =>
    obtain ⟨middle,between,first,tracks'⟩ := step_tracks positive small tracks new call
    obtain ⟨state',chains',later,tracks''⟩ := ih tracks'
    exact ⟨state',chains',by rw [run,first,LinkedNodes.ok_bind,later],tracks''⟩

-- A call that changes one key changes what is found for it, and nothing else.
theorem Tracks.looks_after {t t' : Table} {known : Known} {chains' : Nat → List (Addr × HashBucket)}
    {file : FileId} {pageNo : Int}
    {value : Option Int} (tracks : Tracks size (t,known) chains)
    (after : Tracks size (t',Function.update known (file,pageNo) value) chains')
    (g : FileId) (q f : Int) :
    lookup t' g q f = if (g,q) = (file,pageNo) then .ok (value.elim (.hashNotFound,f) fun frameNo =>
      (.ok,frameNo)) else lookup t g q f := by
  rw [after.looks positive small,tracks.looks positive small]
  by_cases here : (g,q) = (file,pageNo)
  · rw [if_pos here,here]
    dsimp only
    rw [Function.update_self]
    cases value <;> rfl
  · rw [if_neg here]
    dsimp only
    rw [Function.update_of_ne here]

theorem Tracks.acts (tracks : Tracks size state chains) (new : Allocator HashBucket) : ActsAs new state.1 state.2 := by
  obtain ⟨t,known⟩ := state
  have sized : t.htSize = size := tracks.sized
  refine ⟨fun file pageNo => ?_,tracks.looks positive small,fun file pageNo frameNo present =>
    ?_,fun file pageNo frameNo missing => ?_,
    fun file pageNo present => ?_,fun file pageNo missing => ?_⟩
  · obtain ⟨same,below⟩ := hash_eq positive small file pageNo
    dsimp only
    rw [sized,same]
    omega
  · rcases insert_tracks positive small tracks new file pageNo frameNo with ⟨_,_,run⟩ | ⟨missing,_⟩
    · exact run
    · rw [missing] at present
      cases present
  · rcases insert_tracks positive small tracks new file pageNo frameNo with ⟨f,present,_⟩ | ⟨_,t',chains',run,tracks'⟩
    · rw [present] at missing
      cases missing
    · exact ⟨t',run,tracks.looks_after positive small tracks'⟩
  · rcases remove_tracks positive small tracks file pageNo with ⟨missing,_⟩ | ⟨f,_,t',chains',run,tracks'⟩
    · rw [missing] at present
      cases present
    · exact ⟨t',run,tracks.looks_after positive small tracks'⟩
  · rcases remove_tracks positive small tracks file pageNo with ⟨_,run⟩ | ⟨f,present,_⟩
    · exact run
    · rw [present] at missing
      cases missing

end run

-- Any calls on a new table, of any size up to 2^30 and wherever new puts the nodes, leave it a finite map.
theorem buf_hash_is_finite_map (new : Allocator HashBucket) (htSize : Int) (low : 1 ≤ htSize) (high : htSize ≤ 2 ^ 30)
    (calls : List Call) :
    ∃ t known, run new (init htSize,fun _ => none) calls = .ok (t,known) ∧ ActsAs new t known := by
  obtain ⟨size,rfl⟩ := Int.eq_ofNat_of_zero_le (show 0 ≤ htSize by omega)
  have positive : 1 ≤ size := by omega
  have small : size ≤ 2 ^ 30 := by omega
  obtain ⟨state,chains,run,tracks⟩ := run_tracks positive small (init_tracks size) new calls
  exact ⟨state.1,state.2,run,tracks.acts positive small new⟩

-- Three keys on one chain, of which the middle one is removed.
theorem buf_hash_is_finite_map_collisions : ∃ t known, run (.bump _) (init 2,fun _ => none)
    [.insert 4 (-2) 0,.insert 4 0 1,.insert 6 2 2,.insert 4 0 3,.remove 4 0,.lookup 4 (-2) 9] = .ok (t,known) ∧
    ActsAs (.bump _) t known :=
  buf_hash_is_finite_map (.bump _) 2 (by decide) (by decide) _

end Minirel.BufHash
