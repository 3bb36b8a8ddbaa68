import Mathlib.Data.List.Basic
import Mathlib.Data.List.Nodup

namespace BucketTable

-- A hash table of chains; a new entry goes to the head of its chain.
variable {κ ν : Type} [DecidableEq κ]

abbrev Chain (κ ν : Type) := List (κ × ν)
abbrev Table (κ ν : Type) := Nat → Chain κ ν

def find : Chain κ ν → κ → Option ν
  | [],_ => none
  | (key,value)::rest,k => if key = k then some value else find rest k

def unlink : Chain κ ν → κ → Chain κ ν
  | [],_ => []
  | (key,value)::rest,k => if key = k then rest else (key,value)::unlink rest k

def lookup (hash : κ → Nat) (t : Table κ ν) (k : κ) : Option ν := find (t (hash k)) k

def insert (hash : κ → Nat) (t : Table κ ν) (k : κ) (v : ν) : Option (Table κ ν) :=
  match lookup hash t k with
  | some _ => none
  | none => some fun i => if i = hash k then (k,v)::t i else t i

def remove (hash : κ → Nat) (t : Table κ ν) (k : κ) : Option (Table κ ν) :=
  match lookup hash t k with
  | some _ => some fun i => if i = hash k then unlink (t i) k else t i
  | none => none

def Sound (t : Table κ ν) : Prop := ∀ i, ((t i).map Prod.fst).Nodup

theorem find_mem {c : Chain κ ν} {k : κ} {v : ν} (found : find c k = some v) : k ∈ c.map Prod.fst := by
  induction c with
  | nil => cases found
  | cons entry rest ih =>
    by_cases same : entry.1 = k
    · simp [same]
    · rw [find,if_neg same] at found
      exact List.mem_cons_of_mem _ (ih found)

theorem find_none {c : Chain κ ν} {k : κ} : find c k = none ↔ k ∉ c.map Prod.fst := by
  constructor
  · induction c with
    | nil => simp
    | cons entry rest ih =>
      intro missing
      by_cases same : entry.1 = k
      · rw [find,if_pos same] at missing; cases missing
      · rw [find,if_neg same] at missing
        rw [List.map_cons,List.mem_cons]
        rintro (here | later)
        · exact same here.symm
        · exact ih missing later
  · intro missing
    cases found : find c k with
    | none => rfl
    | some v => exact absurd (find_mem found) missing

theorem length_unlink {c : Chain κ ν} {k : κ} {v : ν} (found : find c k = some v) :
    (unlink c k).length + 1 = c.length := by
  induction c with
  | nil => cases found
  | cons entry rest ih =>
    by_cases same : entry.1 = k
    · rw [unlink,if_pos same,List.length_cons]
    · rw [find,if_neg same] at found
      rw [unlink,if_neg same,List.length_cons,List.length_cons,ih found]

theorem unlink_sublist (c : Chain κ ν) (k : κ) : (unlink c k).Sublist c := by
  induction c with
  | nil => exact List.Sublist.slnil
  | cons entry rest ih =>
    by_cases same : entry.1 = k
    · rw [unlink,if_pos same]; exact List.sublist_cons_self _ _
    · rw [unlink,if_neg same]; exact ih.cons_cons _

theorem find_unlink {c : Chain κ ν} (distinct : (c.map Prod.fst).Nodup) (k j : κ) :
    find (unlink c k) j = if j = k then none else find c j := by
  induction c with
  | nil => simp [unlink,find]
  | cons entry rest ih =>
    obtain ⟨fresh,later⟩ := List.nodup_cons.mp distinct
    by_cases same : entry.1 = k
    · subst k
      rw [unlink,if_pos rfl]
      by_cases here : j = entry.1
      · subst j; rw [if_pos rfl,find_none.mpr fresh]
      · rw [if_neg here,find,if_neg (Ne.symm here)]
    · rw [unlink,if_neg same,find,find,ih later]
      by_cases here : entry.1 = j
      · subst j; rw [if_pos rfl,if_pos rfl,if_neg same]
      · rw [if_neg here,if_neg here]

theorem lookup_insert {hash : κ → Nat} {t t' : Table κ ν} {k : κ} {v : ν} (inserted : insert hash t k v = some t')
    (j : κ) :
    lookup hash t' j = if j = k then some v else lookup hash t j := by
  unfold insert at inserted
  cases found : lookup hash t k with
  | some w => rw [found] at inserted; cases inserted
  | none =>
    rw [found] at inserted
    cases inserted
    unfold lookup
    dsimp only
    by_cases same : j = k
    · subst j; simp [find]
    · by_cases chain : hash j = hash k
      · simp [chain,find,same,Ne.symm same]
      · simp [chain,same]

theorem insert_fresh {hash : κ → Nat} {t : Table κ ν} {k : κ} (v : ν) (fresh : lookup hash t k = none) :
    ∃ t', insert hash t k v = some t' := by
  rw [insert,fresh]; exact ⟨_,rfl⟩

theorem insert_present {hash : κ → Nat} {t : Table κ ν} {k : κ} {w : ν} (v : ν) (present : lookup hash t k = some w) :
    insert hash t k v = none := by
  rw [insert,present]

theorem insert_sound {hash : κ → Nat} {t t' : Table κ ν} {k : κ} {v : ν} (sound : Sound t)
    (distinct : insert hash t k v = some t') : Sound t' := by
  unfold insert at distinct
  cases found : lookup hash t k with
  | some w => rw [found] at distinct; cases distinct
  | none =>
    rw [found] at distinct
    cases distinct
    intro i
    dsimp only
    by_cases chain : i = hash k
    · rw [if_pos chain,List.map_cons,List.nodup_cons]
      subst chain
      exact ⟨find_none.mp found,sound _⟩
    · rw [if_neg chain]; exact sound i

theorem lookup_remove {hash : κ → Nat} {t t' : Table κ ν} {k : κ} (sound : Sound t)
    (removed : remove hash t k = some t')
    (j : κ) : lookup hash t' j = if j = k then none else lookup hash t j := by
  unfold remove at removed
  cases found : lookup hash t k with
  | none => rw [found] at removed; cases removed
  | some w =>
    rw [found] at removed
    cases removed
    unfold lookup
    dsimp only
    by_cases chain : hash j = hash k
    · rw [if_pos chain,find_unlink (sound _)]
    · rw [if_neg chain,if_neg fun same => chain (congrArg hash same)]

theorem remove_sound {hash : κ → Nat} {t t' : Table κ ν} {k : κ} (sound : Sound t)
    (removed : remove hash t k = some t') :
    Sound t' := by
  unfold remove at removed
  cases found : lookup hash t k with
  | none => rw [found] at removed; cases removed
  | some w =>
    rw [found] at removed
    cases removed
    intro i
    dsimp only
    split
    · exact (sound i).sublist ((unlink_sublist _ _).map _)
    · exact sound i

theorem remove_present {hash : κ → Nat} {t : Table κ ν} {k : κ} {w : ν} (present : lookup hash t k = some w) :
    ∃ t', remove hash t k = some t' := by
  rw [remove,present]; exact ⟨_,rfl⟩

theorem remove_missing {hash : κ → Nat} {t : Table κ ν} {k : κ} (missing : lookup hash t k = none) :
    remove hash t k = none := by
  rw [remove,missing]

-- The table with other values for the same keys.
def mapValues {μ : Type} (f : ν → μ) (t : Table κ ν) : Table κ μ := fun i => (t i).map fun entry => (entry.1,f entry.2)

theorem find_map {μ : Type} (f : ν → μ) (c : Chain κ ν) (k : κ) :
    find (c.map fun entry => (entry.1,f entry.2)) k = (find c k).map f := by
  induction c with
  | nil => rfl
  | cons entry rest ih =>
    by_cases same : entry.1 = k
    · rw [List.map_cons,find,find,if_pos same,if_pos same]
      rfl
    · rw [List.map_cons,find,find,if_neg same,if_neg same,ih]

theorem unlink_map {μ : Type} (f : ν → μ) (c : Chain κ ν) (k : κ) :
    unlink (c.map fun entry => (entry.1,f entry.2)) k = (unlink c k).map fun entry => (entry.1,f entry.2) := by
  induction c with
  | nil => rfl
  | cons entry rest ih =>
    by_cases same : entry.1 = k
    · rw [List.map_cons,unlink,unlink,if_pos same,if_pos same]
    · rw [List.map_cons,unlink,unlink,if_neg same,if_neg same,ih]
      rfl

theorem lookup_map {μ : Type} (f : ν → μ) (hash : κ → Nat) (t : Table κ ν) (k : κ) :
    lookup hash (mapValues f t) k = (lookup hash t k).map f :=
  find_map f (t (hash k)) k

theorem insert_map {μ : Type} (f : ν → μ) (hash : κ → Nat) (t : Table κ ν) (k : κ) (v : ν) :
    insert hash (mapValues f t) k (f v) = (insert hash t k v).map (mapValues f) := by
  rw [insert,insert,lookup_map]
  cases lookup hash t k with
  | some w => rfl
  | none =>
    refine congrArg some (funext fun i => ?_)
    rw [mapValues,mapValues]
    split <;> rfl

theorem remove_map {μ : Type} (f : ν → μ) (hash : κ → Nat) (t : Table κ ν) (k : κ) :
    remove hash (mapValues f t) k = (remove hash t k).map (mapValues f) := by
  rw [remove,remove,lookup_map]
  cases lookup hash t k with
  | none => rfl
  | some w =>
    refine congrArg some (funext fun i => ?_)
    rw [mapValues,mapValues]
    split
    · exact unlink_map f (t i) k
    · rfl

end BucketTable
