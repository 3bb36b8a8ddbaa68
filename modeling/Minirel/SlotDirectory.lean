import Mathlib.Data.List.Basic
import Mathlib.Data.List.Nodup
import Mathlib.Data.List.Pairwise

namespace SlotDirectory

-- A directory hands out the lowest free position and never keeps a free one at
-- its end, so the positions of live entries are stable under every operation.
abbrev Directory (α : Type) := List (Option α)

variable {α : Type}

def lookup (d : Directory α) (i : Nat) : Option α := d[i]?.join

def firstFree : Directory α → Nat
  | [] => 0
  | none::_ => 0
  | some _::rest => firstFree rest + 1

def put : Directory α → α → Directory α
  | [],v => [some v]
  | none::rest,v => some v::rest
  | some x::rest,v => some x::put rest v

def trim : Directory α → Directory α
  | [] => []
  | some x::rest => some x::trim rest
  | none::rest => if trim rest = [] then [] else none::trim rest

def remove (d : Directory α) (i : Nat) : Directory α := trim (d.set i none)

def Trimmed (d : Directory α) : Prop := trim d = d

def entriesFrom : Nat → Directory α → List (Nat × α)
  | _,[] => []
  | i,none::rest => entriesFrom (i+1) rest
  | i,some v::rest => (i,v)::entriesFrom (i+1) rest

def entries (d : Directory α) : List (Nat × α) := entriesFrom 0 d

@[simp] theorem lookup_nil (i : Nat) : lookup ([] : Directory α) i = none := by simp [lookup]
@[simp] theorem lookup_cons_zero (e : Option α) (d : Directory α) : lookup (e::d) 0 = e := by simp [lookup]
@[simp] theorem lookup_cons_succ (e : Option α) (d : Directory α) (i : Nat) :
    lookup (e::d) (i+1) = lookup d i := by simp [lookup]

theorem lookup_beyond {d : Directory α} {i : Nat} (beyond : d.length ≤ i) : lookup d i = none := by
  simp [lookup,beyond]

theorem lookup_bound {d : Directory α} {i : Nat} {v : α} (found : lookup d i = some v) : i < d.length := by
  by_contra beyond
  simp [lookup_beyond (Nat.le_of_not_lt beyond)] at found

theorem lookup_firstFree (d : Directory α) : lookup d (firstFree d) = none := by
  induction d with
  | nil => rfl
  | cons e rest ih => cases e with
    | none => rfl
    | some x => simpa [firstFree] using ih

theorem below_firstFree {d : Directory α} {i : Nat} (below : i < firstFree d) : ∃ v, lookup d i = some v := by
  induction d generalizing i with
  | nil => cases below
  | cons e rest ih => cases e with
    | none => cases below
    | some x => cases i with
      | zero => exact ⟨x,rfl⟩
      | succ i => simpa using ih (Nat.lt_of_succ_lt_succ below)

theorem lookup_put (d : Directory α) (v : α) (i : Nat) :
    lookup (put d v) i = if i = firstFree d then some v else lookup d i := by
  induction d generalizing i with
  | nil => cases i <;> simp [put,firstFree]
  | cons e rest ih => cases e with
    | none => cases i <;> simp [put,firstFree]
    | some x => cases i with
      | zero => simp [put,firstFree]
      | succ i => simpa [put,firstFree] using ih i

theorem length_put (d : Directory α) (v : α) :
    (put d v).length = if firstFree d = d.length then d.length + 1 else d.length := by
  induction d with
  | nil => rfl
  | cons e rest ih => cases e with
    | none => simp [put,firstFree]
    | some x =>
      simp only [put,firstFree,List.length_cons,ih,Nat.add_right_cancel_iff]
      split <;> rfl

theorem firstFree_put (d : Directory α) (v : α) : firstFree d < firstFree (put d v) := by
  induction d with
  | nil => exact Nat.zero_lt_one
  | cons e rest ih => cases e with
    | none => simp [put,firstFree]
    | some x => simpa [put,firstFree] using ih

theorem lookup_trim (d : Directory α) (i : Nat) : lookup (trim d) i = lookup d i := by
  induction d generalizing i with
  | nil => rfl
  | cons e rest ih => cases e with
    | some x => cases i <;> simp [trim,ih]
    | none =>
      by_cases empty : trim rest = []
      · have gone : ∀ j, lookup rest j = none := fun j => by rw [← ih,empty,lookup_nil]
        cases i <;> simp [trim,empty,gone]
      · cases i <;> simp [trim,empty,ih]

theorem lookup_set_none (d : Directory α) (i j : Nat) :
    lookup (d.set i none) j = if j = i then none else lookup d j := by
  unfold lookup
  rw [List.getElem?_set]
  by_cases same : i = j
  · subst j; by_cases bound : i < d.length <;> simp [bound]
  · simp [same,Ne.symm same]

theorem lookup_remove (d : Directory α) (i j : Nat) :
    lookup (remove d i) j = if j = i then none else lookup d j := by
  rw [remove,lookup_trim,lookup_set_none]

theorem trim_trimmed (d : Directory α) : Trimmed (trim d) := by
  unfold Trimmed
  induction d with
  | nil => rfl
  | cons e rest ih => cases e with
    | some x => simp [trim,ih]
    | none => by_cases empty : trim rest = [] <;> simp [trim,empty,ih]

theorem Trimmed.tail {e : Option α} {d : Directory α} (kept : Trimmed (e::d)) : Trimmed d := by
  unfold Trimmed at kept ⊢
  cases e with
  | some x => simpa [trim] using kept
  | none => by_cases empty : trim d = [] <;> simp [trim,empty] at kept; exact kept

theorem put_trimmed {d : Directory α} (kept : Trimmed d) (v : α) : Trimmed (put d v) := by
  induction d with
  | nil => rfl
  | cons e rest ih =>
    have later := kept.tail
    unfold Trimmed at later
    cases e with
    | none => simpa [Trimmed,put,trim] using later
    | some x =>
      have deeper := ih later
      unfold Trimmed at deeper
      simp [Trimmed,put,trim,deeper]

theorem remove_trimmed (d : Directory α) (i : Nat) : Trimmed (remove d i) := trim_trimmed _

-- A trimmed directory ends in a live entry, hence is empty once all entries are gone.
theorem Trimmed.last_live {d : Directory α} (kept : Trimmed d) (some_entry : d ≠ []) :
    ∃ v, lookup d (d.length - 1) = some v := by
  induction d with
  | nil => exact absurd rfl some_entry
  | cons e rest ih =>
    by_cases empty : rest = []
    · subst rest
      cases e with
      | some x => exact ⟨x,rfl⟩
      | none => simp [Trimmed,trim] at kept
    · have deeper := ih kept.tail empty
      have positive : 0 < rest.length := List.length_pos_of_ne_nil empty
      obtain ⟨k,length⟩ : ∃ k, rest.length = k + 1 := ⟨rest.length - 1,by omega⟩
      simpa [length] using deeper

theorem mem_entriesFrom {d : Directory α} {i j : Nat} {v : α} :
    (j,v) ∈ entriesFrom i d ↔ i ≤ j ∧ lookup d (j - i) = some v := by
  induction d generalizing i with
  | nil => simp [entriesFrom]
  | cons e rest ih =>
    have later : ∀ {k : Nat}, k = j - i → ((j,v) ∈ entriesFrom (i+1) rest ↔ i < j ∧ lookup (e::rest) k = some v) := by
      intro k equal
      rw [ih]
      cases k with
      | zero => constructor <;> intro held <;> omega
      | succ k => rw [lookup_cons_succ,show j - (i+1) = k by omega]; exact Iff.rfl
    have here : lookup (e::rest) (j - i) = some v → i = j → e = some v := by
      intro found equal; subst equal; simpa using found
    cases e with
    | none =>
      rw [entriesFrom,later rfl]
      refine ⟨fun held => ⟨Nat.le_of_lt held.1,held.2⟩,fun held => ⟨?_,held.2⟩⟩
      rcases Nat.lt_or_eq_of_le held.1 with less | equal
      · exact less
      · cases here held.2 equal
    | some x =>
      rw [entriesFrom,List.mem_cons,later rfl]
      constructor
      · rintro (equal | held)
        · cases equal; simp
        · exact ⟨Nat.le_of_lt held.1,held.2⟩
      · intro held
        rcases Nat.lt_or_eq_of_le held.1 with less | equal
        · exact .inr ⟨less,held.2⟩
        · cases here held.2 equal; exact .inl (by rw [equal])

theorem mem_entries {d : Directory α} {i : Nat} {v : α} : (i,v) ∈ entries d ↔ lookup d i = some v := by
  simp [entries,mem_entriesFrom]

theorem entriesFrom_ascending (i : Nat) (d : Directory α) :
    (entriesFrom i d).Pairwise (fun one two => one.1 < two.1) := by
  induction d generalizing i with
  | nil => exact List.Pairwise.nil
  | cons e rest ih => cases e with
    | none => exact ih _
    | some x =>
      refine List.Pairwise.cons ?_ (ih _)
      intro later member
      exact (mem_entriesFrom.mp member).1

theorem entries_ascending (d : Directory α) : (entries d).Pairwise (fun one two => one.1 < two.1) :=
  entriesFrom_ascending 0 d

theorem length_entries_le (d : Directory α) : (entries d).length ≤ d.length := by
  have general : ∀ i, (entriesFrom i d).length ≤ d.length := by
    induction d with
    | nil => exact fun _ => Nat.le_refl _
    | cons e rest ih => cases e with
      | none => exact fun i => Nat.le_succ_of_le (ih (i+1))
      | some v => exact fun i => Nat.succ_le_succ (ih (i+1))
  exact general 0

theorem entries_keys_nodup (d : Directory α) : ((entries d).map Prod.fst).Nodup := by
  rw [List.Nodup,List.pairwise_map]
  exact (entries_ascending d).imp fun less => Nat.ne_of_lt less

-- Ascending lists of entries are determined by their members.
theorem ascending_ext {l l' : List (Nat × α)} (one : l.Pairwise (fun x y => x.1 < y.1))
    (two : l'.Pairwise (fun x y => x.1 < y.1)) (same : ∀ e, e ∈ l ↔ e ∈ l') : l = l' := by
  have nodup : ∀ {k : List (Nat × α)}, k.Pairwise (fun x y => x.1 < y.1) → k.Nodup := by
    intro k ordered
    exact ordered.imp fun less equal => Nat.ne_of_lt less (congrArg Prod.fst equal)
  refine List.Perm.eq_of_pairwise (fun x y _ _ => ?_) one two
    ((List.perm_ext_iff_of_nodup (nodup one) (nodup two)).mpr same)
  intro less more
  exact absurd (Nat.lt_trans less more) (Nat.lt_irrefl _)

theorem entries_remove (d : Directory α) (i : Nat) :
    entries (remove d i) = (entries d).filter (fun e => e.1 ≠ i) := by
  apply ascending_ext (entries_ascending _) ((entries_ascending d).filter _)
  rintro ⟨j,v⟩
  rw [mem_entries,lookup_remove,List.mem_filter,mem_entries]
  by_cases same : j = i <;> simp [same]

theorem entries_put (d : Directory α) (v : α) : ∃ before after,
    entries d = before ++ after ∧ entries (put d v) = before ++ (firstFree d,v)::after ∧
    (∀ e ∈ before, e.1 < firstFree d) ∧ ∀ e ∈ after, firstFree d < e.1 := by
  have general : ∀ i, ∃ before after, entriesFrom i d = before ++ after ∧
      entriesFrom i (put d v) = before ++ (i + firstFree d,v)::after ∧
      (∀ e ∈ before, e.1 < i + firstFree d) ∧ ∀ e ∈ after, i + firstFree d < e.1 := by
    induction d with
    | nil => intro i; exact ⟨[],[],by simp [entriesFrom,put,firstFree]⟩
    | cons e rest ih => cases e with
      | none =>
        intro i
        refine ⟨[],entriesFrom (i+1) rest,rfl,rfl,by simp,?_⟩
        rintro ⟨j,w⟩ member
        exact (mem_entriesFrom.mp member).1
      | some x =>
        intro i
        obtain ⟨before,after,old,new,low,high⟩ := ih (i+1)
        have shift : i + 1 + firstFree rest = i + firstFree (some x::rest) := by simp [firstFree]; omega
        rw [shift] at new low high
        refine ⟨(i,x)::before,after,by simp [entriesFrom,old],by simp [entriesFrom,put,new],?_,high⟩
        intro f member
        rcases List.mem_cons.mp member with rfl | tail
        · simp [firstFree]
        · exact low f tail
  simpa [entries] using general 0

-- The length of a trimmed directory is one past its last live entry.
theorem Trimmed.length_eq {d : Directory α} (kept : Trimmed d) {m : Nat} (above : ∀ j v, lookup d j = some v → j < m)
    (last : m = 0 ∨ ∃ v, lookup d (m - 1) = some v) : d.length = m := by
  rcases Nat.lt_trichotomy d.length m with short | equal | long
  · rcases last with zero | ⟨v,found⟩
    · omega
    · have := lookup_bound found
      omega
  · exact equal
  · have some_entry : d ≠ [] := List.ne_nil_of_length_pos (by omega)
    obtain ⟨v,found⟩ := kept.last_live some_entry
    have := above _ v found
    omega

-- What a scan has still to visit once every position below k is behind it.
def liveFrom (d : Directory α) (k : Nat) : List (Nat × α) := (entries d).filter (fun e => k ≤ e.1)

theorem liveFrom_zero (d : Directory α) : liveFrom d 0 = entries d := by simp [liveFrom]

theorem mem_liveFrom {d : Directory α} {k i : Nat} {v : α} : (i,v) ∈ liveFrom d k ↔ k ≤ i ∧ lookup d i = some v := by
  simp [liveFrom,mem_entries,and_comm]

theorem liveFrom_nil {d : Directory α} {k : Nat} (gone : ∀ j, k ≤ j → lookup d j = none) : liveFrom d k = [] := by
  apply List.eq_nil_iff_forall_not_mem.mpr
  rintro ⟨i,v⟩ member
  obtain ⟨behind,found⟩ := mem_liveFrom.mp member
  rw [gone i behind] at found
  cases found

theorem liveFrom_cons {d : Directory α} {k j : Nat} {v : α} (behind : k ≤ j) (found : lookup d j = some v)
    (gone : ∀ i, k ≤ i → i < j → lookup d i = none) : liveFrom d k = (j,v)::liveFrom d (j+1) := by
  have ordered : ∀ k, (liveFrom d k).Pairwise (fun x y => x.1 < y.1) := fun k => (entries_ascending d).filter _
  apply ascending_ext (ordered k)
  · refine List.Pairwise.cons ?_ (ordered _)
    rintro ⟨i,w⟩ member
    exact (mem_liveFrom.mp member).1
  · rintro ⟨i,w⟩
    rw [List.mem_cons,mem_liveFrom,mem_liveFrom]
    constructor
    · intro held
      rcases Nat.lt_trichotomy i j with less | rfl | more
      · rw [gone i held.1 less] at held; cases held.2
      · rw [found] at held; cases held.2; exact .inl rfl
      · exact .inr ⟨more,held.2⟩
    · rintro (equal | held)
      · cases equal; exact ⟨behind,found⟩
      · exact ⟨by omega,held.2⟩

-- Read the other way round: the first of what is left, and what is left behind it.
theorem liveFrom_step {d : Directory α} {k j : Nat} {v : α} {l : List (Nat × α)} (first : liveFrom d k = (j,v)::l) :
    k ≤ j ∧ lookup d j = some v ∧ l = liveFrom d (j+1) := by
  have here : (j,v) ∈ liveFrom d k := by rw [first]; exact List.mem_cons_self ..
  obtain ⟨behind,found⟩ := mem_liveFrom.mp here
  have ordered : (liveFrom d k).Pairwise (fun x y => x.1 < y.1) := (entries_ascending d).filter _
  rw [first,List.pairwise_cons] at ordered
  have again : liveFrom d k = (j,v)::liveFrom d (j+1) := by
    refine liveFrom_cons behind found fun i from_k below => ?_
    by_contra live
    obtain ⟨w,there⟩ := Option.ne_none_iff_exists'.mp live
    have member := mem_liveFrom.mpr ⟨from_k,there⟩
    rw [first,List.mem_cons] at member
    rcases member with same | later
    · cases same; omega
    · have := ordered.1 _ later; dsimp only at this; omega
  rw [first,List.cons.injEq] at again
  exact ⟨behind,found,again.2⟩

theorem liveFrom_remove (d : Directory α) (i k : Nat) (behind : i < k) : liveFrom (remove d i) k = liveFrom d k := by
  rw [liveFrom,entries_remove,List.filter_filter,liveFrom]
  apply List.filter_congr
  intro e _
  by_cases above : k ≤ e.1
  · have other : e.1 ≠ i := by omega
    simp [above,other]
  · simp [above]

end SlotDirectory
