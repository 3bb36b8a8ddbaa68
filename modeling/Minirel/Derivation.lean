import Minirel.Feeding

namespace Minirel
open ByteMemory SlotDirectory Page Heap

-- Every item but the new one, where the new one is in the list at all.
def spared (grows : Bool) (new e : Entry) : Bool := !(grows && e == new)

theorem filter_spared {l l' : List Entry} {grows : Bool} {new : Entry} (fresh : grows = true → new ∉ l)
    (still : grows = false → l' = l) (gained : l' = l ∨ OneMore new l l') : l'.filter (spared grows new) = l := by
  cases grows with
  | false =>
    rw [still rfl]
    exact List.filter_eq_self.mpr fun _ _ => rfl
  | true =>
    have off := fresh rfl
    have same : l.filter (spared true new) = l := by
      refine List.filter_eq_self.mpr fun e member => ?_
      have other : e ≠ new := fun here => off (here ▸ member)
      simpa [spared] using other
    rcases gained with rfl | more
    · exact same
    · exact (more.filter_out (by simp [spared])).trans same

theorem pairsOf_filter {α β : Type} (accepts : α → β → Bool) (p : α → Bool) (q : β → Bool) (ones : List α)
    (twos : List β) : pairsOf accepts Prod.mk (ones.filter p) (twos.filter q) =
      (pairsOf accepts Prod.mk ones twos).filter fun e => p e.1 && q e.2 := by
  induction ones with
  | nil => rfl
  | cons a rest ih =>
    have here : ((twos.filter (accepts a)).map (Prod.mk a)).filter (fun e => p e.1 && q e.2) =
        if p a then ((twos.filter q).filter (accepts a)).map (Prod.mk a) else [] := by
      rw [List.filter_map]
      cases chosen : p a with
      | false => simp [Function.comp_def,chosen]
      | true =>
        simp only [Function.comp_def,chosen,Bool.true_and,if_true]
        rw [List.filter_comm]
    unfold pairsOf at ih ⊢
    rw [List.flatMap_cons,List.filter_append,here,← ih]
    cases chosen : p a with
    | false => simp [chosen]
    | true => simp [chosen]

theorem Cursor.mem_heap {c : Cursor} {e : Entry} (member : e ∈ c.remaining) : e ∈ records c.heap := by
  rw [Cursor.heap,records_append,records_cons]
  rcases List.mem_append.mp member with on_page | later
  · obtain ⟨⟨i,v⟩,live,rfl⟩ := List.mem_map.mp on_page
    exact List.mem_append_right _ (List.mem_append_left _ (mem_pageRecords.mpr ⟨i,rfl,(mem_liveFrom.mp live).2⟩))
  · exact List.mem_append_right _ (List.mem_append_right _ later)

theorem Cursor.Current.mem_heap {c : Cursor} {e : Entry} (current : c.Current e) : e ∈ records c.heap := by
  obtain ⟨rid,bytes⟩ := e
  obtain ⟨i,at_rid,_,found⟩ := current
  rw [Cursor.heap,records_append,records_cons]
  exact List.mem_append_right _ (List.mem_append_left _ (mem_pageRecords.mpr ⟨i,at_rid,found⟩))

-- What a query derives of the records of two relations, either of which may be the one that the
-- tuples, of this width, are inserted into.
structure Derivation where
  result : Heap
  outer : Heap
  inner : Heap
  width : Nat
  fromOuter : Bool
  fromInner : Bool
  accepts : List UInt8 → List UInt8 → Bool
  output : List UInt8 → List UInt8 → List UInt8

namespace Derivation

variable (q : Derivation)

def pairsIn (outer inner : List Entry) : List (Entry × Entry) :=
  pairsOf (fun o e => q.accepts o.2 e.2) Prod.mk outer inner

def pairs : List (Entry × Entry) := q.pairsIn (records q.outer) (records q.inner)

def tuples : List (List UInt8) := q.pairs.map fun p => q.output p.1.2 p.2.2

-- The k-th tuple, derived from o and e, makes the query derive nothing more: where a scan comes to it,
-- it pairs with none that the query still joins it with. It lies behind a scan that stands on a record
-- when it comes to lie before that.
structure Unmet (k : Nat) (o e : Entry) (later : List Entry) : Prop where
  inner : q.fromInner = true → (Before q.result q.width k e.1 ∨ q.accepts o.2 (q.output o.2 e.2) = false) ∧
    ∀ o' ∈ later, q.accepts o'.2 (q.output o.2 e.2) = false
  outer : q.fromOuter = true → Before q.result q.width k o.1 ∨
    ∀ r ∈ records q.inner, q.accepts (q.output o.2 e.2) r.2 = false
  both : q.fromOuter = true → q.fromInner = true → ∀ (j : Nat) y, q.tuples[j]? = some y →
    (j < k → Before q.result q.width j o.1 ∨ q.accepts y (q.output o.2 e.2) = false) ∧
      (j ≤ k → Before q.result q.width k o.1 ∨ q.accepts (q.output o.2 e.2) y = false)

-- No tuple is met by the query that derives it, or only to no effect. Tuples too wide for a page are
-- not even inserted.
def Calm : Prop := dataSize < q.width + slotSize ∨ ∀ (k : Nat) o e, q.pairs[k]? = some (o,e) →
  ∀ front later, records q.outer = front ++ o::later → q.Unmet k o e later

structure Sound : Prop where
  outer : q.fromOuter = true → q.outer = q.result
  inner : q.fromInner = true → q.inner = q.result
  nodup : (records q.outer).Nodup

-- The pairs to come: those of the current outer record with what the inner scan has before it, and all
-- of the outer records after it.
def left (o : Entry) (here outer inner : List Entry) : List (Entry × Entry) :=
  (here.filter fun e => q.accepts o.2 e.2).map (Prod.mk o) ++ q.pairsIn outer inner

variable {q : Derivation}

theorem left_filter {new o : Entry} {here outer inner : List Entry} (current : q.fromOuter = true → o ≠ new) :
    q.left o (here.filter (spared q.fromInner new)) (outer.filter (spared q.fromOuter new))
        (inner.filter (spared q.fromInner new)) =
      (q.left o here outer inner).filter fun p => spared q.fromOuter new p.1 && spared q.fromInner new p.2 := by
  have kept : spared q.fromOuter new o = true := by
    cases grows : q.fromOuter with
    | false => rfl
    | true => simpa [spared] using current grows
  unfold left pairsIn
  rw [List.filter_append,pairsOf_filter,List.filter_map]
  simp only [Function.comp_def,kept,Bool.true_and]
  rw [List.filter_comm]

-- Which records are ahead of an outer scan that stands on o: those that were, and the inserted ones that
-- do not lie before o.
structure Ahead (q : Derivation) (own : List Entry) (o : Entry) (later outer : List Entry) : Prop where
  old : ∀ y ∈ later, y ∈ outer
  only : ∀ y ∈ outer, y ∈ later ∨ q.fromOuter = true ∧ y ∈ own
  own : q.fromOuter = true → ∀ (j : Nat) y, own[j]? = some y → (y ∈ outer ↔ ¬ Before q.result q.width j o.1)

-- What lies where when a record derived of o and e has just been inserted.
structure Newest (q : Derivation) (own here later outer inner : List Entry) (o e new : Entry) : Prop where
  derived : new.2 = q.output o.2 e.2
  tuples : (own ++ [new]).map Prod.snd = q.tuples.take (own ++ [new]).length
  here : q.fromInner = true → (new ∈ here ↔ ¬ Before q.result q.width own.length e.1)
  ahead : q.Ahead (own ++ [new]) o later outer
  seen : ∀ y, y ∈ inner ↔ y ∈ records q.inner ∨ q.fromInner = true ∧ y ∈ own ++ [new]
  current : q.fromOuter = true → o ≠ new

namespace Newest

variable {own here later outer inner : List Entry} {o e new : Entry}

theorem last (own : List Entry) (new : Entry) : (own ++ [new])[own.length]? = some new := by simp

theorem at_tuple (newest : q.Newest own here later outer inner o e new) {j : Nat} (within : j ≤ own.length) :
    q.tuples[j]? = ((own ++ [new])[j]?).map Prod.snd := by
  rw [← List.getElem?_map,newest.tuples,List.getElem?_take_of_lt]
  rw [List.length_append,List.length_singleton]
  exact Nat.lt_succ_of_le within

theorem told (newest : q.Newest own here later outer inner o e new) {y : Entry} (member : y ∈ own ++ [new]) :
    ∃ j, j ≤ own.length ∧ (own ++ [new])[j]? = some y ∧ q.tuples[j]? = some y.2 := by
  obtain ⟨j,there⟩ := List.mem_iff_getElem?.mp member
  have inside := (List.getElem?_eq_some_iff.mp there).1
  rw [List.length_append,List.length_singleton] at inside
  have within := Nat.le_of_lt_succ inside
  exact ⟨j,within,there,by rw [newest.at_tuple within,there]; rfl⟩

theorem drawn (newest : q.Newest own here later outer inner o e new) {j : Nat} {b : List UInt8}
    (within : j ≤ own.length) (there : q.tuples[j]? = some b) : ∃ y, (own ++ [new])[j]? = some y ∧ y.2 = b := by
  rw [newest.at_tuple within] at there
  exact Option.map_eq_some_iff.mp there

theorem mem_left {y r : Entry} (in_outer : y ∈ outer) (in_inner : r ∈ inner) (accepted : q.accepts y.2 r.2 = true) :
    (y,r) ∈ q.left o here outer inner :=
  List.mem_append_right _ (List.mem_flatMap.mpr
    ⟨y,in_outer,List.mem_map.mpr ⟨r,List.mem_filter.mpr ⟨in_inner,accepted⟩,rfl⟩⟩)

-- A record that is in none of the pairs to come is unmet.
theorem unmet (newest : q.Newest own here later outer inner o e new)
    (not_outer : q.fromOuter = true → ∀ r, (new,r) ∉ q.left o here outer inner)
    (not_inner : q.fromInner = true → ∀ y, (y,new) ∉ q.left o here outer inner) : q.Unmet own.length o e later := by
  have ⟨derived,_,on_inner,ahead,seen,_⟩ := newest
  have last := last own new
  have in_inner : q.fromInner = true → new ∈ inner := fun grows => (seen new).mpr (.inr ⟨grows,by simp⟩)
  constructor
  case inner =>
    intro grows
    refine ⟨?_,fun o' member => ?_⟩
    · by_contra neither
      rw [not_or,Bool.not_eq_false,← derived] at neither
      exact not_inner grows o (List.mem_append_left _ (List.mem_map.mpr ⟨new,List.mem_filter.mpr
        ⟨(on_inner grows).mpr neither.1,neither.2⟩,rfl⟩))
    · by_contra accepted
      rw [Bool.not_eq_false,← derived] at accepted
      exact not_inner grows o' (mem_left (ahead.old o' member) (in_inner grows) accepted)
  case outer =>
    intro grows
    by_contra neither
    rw [not_or] at neither
    obtain ⟨not_before,some_pair⟩ := neither
    push Not at some_pair
    obtain ⟨r,member,accepted⟩ := some_pair
    rw [Bool.ne_false_iff,← derived] at accepted
    exact not_outer grows r (mem_left ((ahead.own grows _ _ last).mpr not_before) ((seen r).mpr (.inl member)) accepted)
  case both =>
    intro grows1 grows2 j b at_j
    constructor
    · intro earlier
      obtain ⟨y,there,rfl⟩ := newest.drawn (Nat.le_of_lt earlier) at_j
      by_contra neither
      rw [not_or,Bool.not_eq_false,← derived] at neither
      exact not_inner grows2 y (mem_left ((ahead.own grows1 _ _ there).mpr neither.1) (in_inner grows2) neither.2)
    · intro within
      obtain ⟨y,there,rfl⟩ := newest.drawn within at_j
      by_contra neither
      rw [not_or,Bool.not_eq_false,← derived] at neither
      exact not_outer grows1 y (mem_left ((ahead.own grows1 _ _ last).mpr neither.1)
        ((seen y).mpr (.inr ⟨grows2,List.mem_of_getElem? there⟩)) neither.2)

theorem apart (newest : q.Newest own here later outer inner o e new) (unmet : q.Unmet own.length o e later) :
    (q.fromOuter = true → ∀ r, (new,r) ∉ q.left o here outer inner) ∧
      (q.fromInner = true → ∀ y, (y,new) ∉ q.left o here outer inner) := by
  have ⟨derived,_,on_inner,ahead,seen,current⟩ := newest
  have last := last own new
  have refused : ∀ {b : Bool}, b = true → b = false → False := fun yes no => by simp [yes] at no
  -- The newest record and one that the query joins it with, as outer record.
  have new_outer : q.fromOuter = true → new ∈ outer → ∀ r ∈ inner, q.accepts new.2 r.2 = true → False := by
    intro grows in_outer r in_inner accepted
    have not_before := (ahead.own grows _ _ last).mp in_outer
    rw [derived] at accepted
    rcases (seen r).mp in_inner with old | ⟨grows2,new_one⟩
    · exact (unmet.outer grows).elim not_before fun none_pairs => refused accepted (none_pairs r old)
    · obtain ⟨j,within,_,at_j⟩ := newest.told new_one
      exact ((unmet.both grows grows2 j _ at_j).2 within).elim not_before (refused accepted)
  constructor
  · rintro grows r member
    rcases List.mem_append.mp member with with_current | with_later
    · obtain ⟨z,_,same⟩ := List.mem_map.mp with_current
      exact current grows (Prod.mk.inj same).1
    · obtain ⟨y,in_outer,found⟩ := List.mem_flatMap.mp with_later
      obtain ⟨z,inside,same⟩ := List.mem_map.mp found
      obtain ⟨rfl,rfl⟩ := Prod.mk.inj same
      obtain ⟨in_inner,accepted⟩ := List.mem_filter.mp inside
      exact new_outer grows in_outer _ in_inner accepted
  · rintro grows y member
    rcases List.mem_append.mp member with with_current | with_later
    · obtain ⟨z,inside,same⟩ := List.mem_map.mp with_current
      obtain ⟨rfl,rfl⟩ := Prod.mk.inj same
      obtain ⟨ahead_inner,accepted⟩ := List.mem_filter.mp inside
      rw [derived] at accepted
      exact (unmet.inner grows).1.elim ((on_inner grows).mp ahead_inner) (refused accepted)
    · obtain ⟨y',in_outer,found⟩ := List.mem_flatMap.mp with_later
      obtain ⟨z,inside,same⟩ := List.mem_map.mp found
      obtain ⟨rfl,rfl⟩ := Prod.mk.inj same
      obtain ⟨in_inner,accepted⟩ := List.mem_filter.mp inside
      dsimp only at accepted
      rcases ahead.only y' in_outer with old | ⟨grows1,new_one⟩
      · rw [derived] at accepted
        exact refused accepted ((unmet.inner grows).2 y' old)
      · obtain ⟨j,within,there,at_j⟩ := newest.told new_one
        rcases Nat.lt_or_eq_of_le within with earlier | rfl
        · rw [derived] at accepted
          exact ((unmet.both grows1 grows j _ at_j).1 earlier).elim ((ahead.own grows1 _ _ there).mp in_outer)
            (refused accepted)
        · cases last.symm.trans there
          exact new_outer grows1 in_outer _ in_inner accepted

-- The pairs to come are those there were, unless the newest record is met.
theorem spared_iff (newest : q.Newest own here later outer inner o e new) :
    ((q.left o here outer inner).filter fun p => spared q.fromOuter new p.1 && spared q.fromInner new p.2) =
      q.left o here outer inner ↔ q.Unmet own.length o e later := by
  rw [List.filter_eq_self]
  constructor
  · intro spares
    refine newest.unmet (fun grows r member => ?_) fun grows y member => ?_
    · simpa [spared,grows] using spares _ member
    · simpa [spared,grows] using spares _ member
  · rintro unmet ⟨y,r⟩ member
    obtain ⟨not_outer,not_inner⟩ := newest.apart unmet
    rw [Bool.and_eq_true]
    constructor
    · by_contra met
      simp only [spared,Bool.not_eq_true',Bool.not_eq_false,Bool.and_eq_true,beq_iff_eq] at met
      obtain ⟨grows,rfl⟩ := met
      exact not_outer grows r member
    · by_contra met
      simp only [spared,Bool.not_eq_true',Bool.not_eq_false,Bool.and_eq_true,beq_iff_eq] at met
      obtain ⟨grows,rfl⟩ := met
      exact not_inner grows y member

end Newest

-- The two cursors of a query, the outer one on its record.
structure Places (q : Derivation) (t : Tail) (o : Entry) (co c : Cursor) : Prop where
  outer : co.heap = t.seen q.fromOuter q.outer
  current : co.Current o
  inner : c.heap = t.seen q.fromInner q.inner

def leftAt (q : Derivation) (t : Tail) (o : Entry) (co c : Cursor) : List (Entry × Entry) :=
  q.left o c.remaining co.remaining (records (t.seen q.fromInner q.inner))

-- The first tuples have been inserted and were all unmet, so that the others are what is left.
structure SoFar (q : Derivation) (own : List Entry) (t : Tail) (ahead : List Entry) (left : List (Entry × Entry)) :
    Prop where
  grown : Grown q.result q.width own t
  tuples : own.map Prod.snd = q.tuples.take own.length
  left : left = q.pairs.drop own.length
  unmet : ∀ k < own.length, ∀ o e, q.pairs[k]? = some (o,e) → ∀ front later, records q.outer = front ++ o::later →
    q.Unmet k o e later
  later : (ahead.filter fun e => e ∈ records q.outer) <:+ records q.outer

-- There is more to come than was to be derived.
def Over (q : Derivation) (t : Tail) (left : List (Entry × Entry)) : Prop :=
  (records q.result).length + q.tuples.length < (records t.heap).length + left.length

variable {own : List Entry} {t t' : Tail} {o e : Entry} {co co' c c' : Cursor} {rid : RID} {bytes : List UInt8}
  {left : List (Entry × Entry)}

theorem seen_own (t : Tail) {grows : Bool} (other : Heap) (is_own : grows = true) : t.seen grows other = t.heap := by
  rw [Tail.seen,if_pos is_own]

theorem seen_other (t : Tail) {grows : Bool} (other : Heap) (not_own : grows = false) : t.seen grows other = other := by
  rw [Tail.seen,if_neg (by simp [not_own])]

-- A cursor that has come through an insert has the same to come, but for the new record.
theorem watched_filter {grows : Bool} {other : Heap} (takes : t.Takes bytes (.ok rid) t')
    (nodup : (pageNos t'.heap).Nodup) (whole : c.heap = t.seen grows other)
    (watched : Tail.Watched grows other t' bytes (.ok rid) c c') :
    c'.remaining.filter (spared grows (rid,bytes)) = c.remaining := by
  refine filter_spared (fun is_own member => ?_) (fun not_own => congrArg _ (watched.still not_own))
    (watched.follows.gained rid rfl)
  have inside := Cursor.mem_heap member
  rw [whole,seen_own t other is_own] at inside
  exact takes.fresh nodup inside

theorem seen_filter {grows : Bool} {other : Heap} (takes : t.Takes bytes (.ok rid) t')
    (nodup : (pageNos t'.heap).Nodup) :
    (records (t'.seen grows other)).filter (spared grows (rid,bytes)) = records (t.seen grows other) := by
  cases grows with
  | false =>
    rw [seen_other t other rfl,seen_other t' other rfl]
    exact List.filter_eq_self.mpr fun _ _ => rfl
  | true =>
    rw [seen_own t other rfl,seen_own t' other rfl]
    exact filter_spared (fun _ => takes.fresh nodup) nofun (.inr takes.more)

theorem Places.insert (places : q.Places t o co c)
    (outer : Tail.Watched q.fromOuter q.outer t' bytes (.ok rid) co co')
    (inner : Tail.Watched q.fromInner q.inner t' bytes (.ok rid) c c') : q.Places t' o co' c' :=
  ⟨outer.whole,outer.follows.current o places.current,inner.whole⟩

theorem Places.leftAt_filter (places : q.Places t o co c) (takes : t.Takes bytes (.ok rid) t')
    (nodup : (pageNos t'.heap).Nodup) (outer : Tail.Watched q.fromOuter q.outer t' bytes (.ok rid) co co')
    (inner : Tail.Watched q.fromInner q.inner t' bytes (.ok rid) c c') :
    ((q.leftAt t' o co' c').filter fun p =>
      spared q.fromOuter (rid,bytes) p.1 && spared q.fromInner (rid,bytes) p.2) = q.leftAt t o co c := by
  have current : q.fromOuter = true → o ≠ (rid,bytes) := by
    rintro is_own rfl
    have inside := places.current.mem_heap
    rw [places.outer,seen_own t _ is_own] at inside
    exact takes.fresh nodup inside
  rw [leftAt,← left_filter current,watched_filter takes nodup places.outer outer,
    watched_filter takes nodup places.inner inner,seen_filter takes nodup]
  rfl

theorem Over.insert (beyond : q.Over t ((o,e)::q.leftAt t o co c)) (places : q.Places t o co c)
    (takes : t.Takes bytes (.ok rid) t') (nodup : (pageNos t'.heap).Nodup)
    (outer : Tail.Watched q.fromOuter q.outer t' bytes (.ok rid) co co')
    (inner : Tail.Watched q.fromInner q.inner t' bytes (.ok rid) c c') : q.Over t' (q.leftAt t' o co' c') := by
  have one_more : (records t'.heap).length = (records t.heap).length + 1 := OneMore.length takes.more
  have no_less := List.length_filter_le (fun p : Entry × Entry =>
    spared q.fromOuter (rid,bytes) p.1 && spared q.fromInner (rid,bytes) p.2) (q.leftAt t' o co' c')
  rw [places.leftAt_filter takes nodup outer inner] at no_less
  unfold Over at beyond ⊢
  rw [List.length_cons] at beyond
  omega

theorem SoFar.head (sofar : q.SoFar own t (o::co.remaining) ((o,e)::left)) :
    q.pairs[own.length]? = some (o,e) ∧ left = q.pairs.drop (own.length + 1) ∧ o ∈ records q.outer ∧
      e ∈ records q.inner ∧ q.tuples[own.length]? = some (q.output o.2 e.2) := by
  have first : q.pairs[own.length]? = some (o,e) := by
    have at_head := congrArg List.head? sofar.left
    rw [List.head?_drop] at at_head
    exact at_head.symm
  have rest := congrArg List.tail sofar.left
  rw [List.tail_drop] at rest
  obtain ⟨o',in_outer,found⟩ := List.mem_flatMap.mp (List.mem_of_getElem? first)
  obtain ⟨e',inside,same⟩ := List.mem_map.mp found
  obtain ⟨rfl,rfl⟩ := Prod.mk.inj same
  refine ⟨first,rest,in_outer,(List.mem_filter.mp inside).1,?_⟩
  rw [Derivation.tuples,List.getElem?_map,first]
  rfl

-- The outer records of the beginning that are still to come do not change.
theorem old_ahead {new : Entry} {outer outer' : List Entry} (sound : q.Sound) (apart : new ∉ records q.result)
    (kept : outer'.filter (spared q.fromOuter new) = outer) :
    (outer'.filter fun e => e ∈ records q.outer) = outer.filter fun e => e ∈ records q.outer := by
  rw [← kept,List.filter_filter]
  refine List.filter_congr fun y _ => ?_
  by_cases old : y ∈ records q.outer
  · have spares : spared q.fromOuter new y = true := by
      by_contra met
      simp only [spared,Bool.not_eq_true',Bool.not_eq_false,Bool.and_eq_true,beq_iff_eq] at met
      obtain ⟨grows,rfl⟩ := met
      rw [sound.outer grows] at old
      exact apart old
    simp [old,spares]
  · simp [old]

theorem Sound.later_unique (sound : q.Sound) {front front' later later' : List Entry}
    (split : records q.outer = front ++ o::later) (split' : records q.outer = front' ++ o::later') : later' =
    later := by
  have once := sound.nodup
  rw [split'] at once
  have off := (List.nodup_cons.mp (List.nodup_middle.mp once)).1
  rw [List.mem_append,not_or] at off
  exact ((List.append_cons_inj_of_notMem off.1 off.2).mp (split'.symm.trans split)).2.2

theorem Places.newest (places : q.Places t o co c) (sound : q.Sound)
    (grown : Grown q.result q.width (own ++ [(rid,q.output o.2 e.2)]) t)
    (tuples : (own ++ [(rid,q.output o.2 e.2)]).map Prod.snd = q.tuples.take (own ++ [(rid,q.output o.2 e.2)]).length)
    (in_outer : o ∈ records q.outer) (in_inner : e ∈ records q.inner) (current : c.Current e) :
    q.Newest own c.remaining (co.remaining.filter fun e => e ∈ records q.outer) co.remaining
      (records (t.seen q.fromInner q.inner)) o e (rid,q.output o.2 e.2) := by
  constructor
  case derived => rfl
  case tuples => exact tuples
  case here =>
    intro grows
    rw [sound.inner grows] at in_inner
    exact grown.ahead_iff (places.inner.trans (seen_own t _ grows)) in_inner current (Newest.last _ _)
  case ahead =>
    refine ⟨fun y member => List.mem_of_mem_filter member,fun y member => ?_,fun grows j y there => ?_⟩
    · by_cases old : y ∈ records q.outer
      · exact .inl (List.mem_filter.mpr ⟨member,by simpa using old⟩)
      · have inside := Cursor.mem_heap member
        rw [places.outer] at inside
        cases grows : q.fromOuter with
        | false =>
          rw [seen_other t _ grows] at inside
          exact absurd inside old
        | true =>
          rw [seen_own t _ grows,grown.mem,← sound.outer grows] at inside
          exact .inr ⟨rfl,inside.resolve_left old⟩
    · rw [sound.outer grows] at in_outer
      exact grown.ahead_iff (places.outer.trans (seen_own t _ grows)) in_outer places.current there
  case seen =>
    intro y
    cases grows : q.fromInner with
    | false =>
      rw [seen_other t _ rfl]
      simp
    | true =>
      rw [seen_own t _ rfl,grown.mem,sound.inner grows]
      simp
  case current =>
    intro grows same
    rw [sound.outer grows,same] at in_outer
    exact grown.apart _ (by simp) in_outer

-- One insert: as long as the tuples are unmet the next is the one that was to be derived, and the first
-- that is met leaves more to come than that.
theorem SoFar.insert (sofar : q.SoFar own t (o::co.remaining) ((o,e)::q.leftAt t o co c)) (sound : q.Sound)
    (places : q.Places t o co c) (current : c.Current e) (width : (q.output o.2 e.2).length = q.width)
    (takes : t.Takes (q.output o.2 e.2) (.ok rid) t') (nodup : (pageNos t'.heap).Nodup)
    (outer : Tail.Watched q.fromOuter q.outer t' (q.output o.2 e.2) (.ok rid) co co')
    (inner : Tail.Watched q.fromInner q.inner t' (q.output o.2 e.2) (.ok rid) c c') :
    q.SoFar (own ++ [(rid,q.output o.2 e.2)]) t' (o::co'.remaining) (q.leftAt t' o co' c') ∨
      ¬ q.Calm ∧ q.Over t' (q.leftAt t' o co' c') := by
  obtain ⟨first,rest,in_outer,in_inner,tuple⟩ := sofar.head
  have grown := sofar.grown.takes takes nodup width
  have tuples : (own ++ [(rid,q.output o.2 e.2)]).map Prod.snd =
      q.tuples.take (own ++ [(rid,q.output o.2 e.2)]).length := by
    rw [List.map_append,sofar.tuples,List.length_append,List.length_singleton,List.take_add_one,tuple]
    rfl
  have same_later : ((o::co'.remaining).filter fun e => e ∈ records q.outer) =
      (o::co.remaining).filter fun e => e ∈ records q.outer := by
    rw [List.filter_cons,List.filter_cons,old_ahead sound (grown.apart _ (by simp))
      (watched_filter takes nodup places.outer outer)]
  have later := sofar.later
  rw [← same_later] at later
  obtain ⟨front,split⟩ := later
  rw [List.filter_cons,if_pos (by simpa using in_outer)] at split
  have unmet_iff := ((places.insert outer inner).newest sound grown tuples in_outer in_inner
    (inner.follows.current e current)).spared_iff
  rw [show q.left o c'.remaining co'.remaining (records (t'.seen q.fromInner q.inner)) = q.leftAt t' o co' c' from rfl]
    at unmet_iff
  have kept := places.leftAt_filter takes nodup outer inner
  by_cases unmet : q.Unmet own.length o e (co'.remaining.filter fun e => e ∈ records q.outer)
  · left
    have same := unmet_iff.mpr unmet
    rw [kept] at same
    constructor
    case grown => exact grown
    case tuples => exact tuples
    case left => rw [← same,rest,List.length_append,List.length_singleton]
    case later => rw [same_later]; exact sofar.later
    case unmet =>
      intro k below o' e' at_k front' later' split'
      rw [List.length_append,List.length_singleton] at below
      rcases Nat.lt_or_eq_of_le (Nat.le_of_lt_succ below) with earlier | rfl
      · exact sofar.unmet k earlier o' e' at_k front' later' split'
      · cases at_k.symm.trans first
        rw [sound.later_unique split.symm split']
        exact unmet
  · right
    have fits := Lands.fits takes
    refine ⟨fun calm => calm.elim (fun wide => by omega) fun all => unmet (all _ o e first front _ split.symm),?_⟩
    -- Some pair to come has the new record, so there are more than there were.
    have fewer : (q.leftAt t o co c).length < (q.leftAt t' o co' c').length := by
      rw [← kept]
      by_contra no_fewer
      refine unmet (unmet_iff.mp (List.Sublist.eq_of_length List.filter_sublist ?_))
      have le := List.length_filter_le (fun p : Entry × Entry => spared q.fromOuter (rid,q.output o.2 e.2) p.1 &&
        spared q.fromInner (rid,q.output o.2 e.2) p.2) (q.leftAt t' o co' c')
      omega
    have count := grown.length
    have all : q.tuples.length = q.pairs.length := by rw [Derivation.tuples,List.length_map]
    have in_range := (List.getElem?_eq_some_iff.mp first).1
    rw [rest,List.length_drop] at fewer
    rw [List.length_append,List.length_singleton] at count
    unfold Over
    omega

-- Either all has gone as derived so far, with m tuples yet to come, or some tuple was met.
def Goes (q : Derivation) (t : Tail) (ahead : List Entry) (left : List (Entry × Entry)) (m : Nat) : Prop :=
  (∃ own, q.SoFar own t ahead left ∧ own.length + m = q.tuples.length) ∨ ¬ q.Calm ∧ q.Over t left

theorem Goes.start (split : q.result = t.heap) (nodup : (pageNos q.result).Nodup) :
    q.Goes t (records q.outer) q.pairs q.tuples.length := by
  have all : ((records q.outer).filter fun e => e ∈ records q.outer) = records q.outer :=
    List.filter_eq_self.mpr fun e member => by simpa using member
  exact .inl ⟨[],⟨Grown.start q.width split nodup,rfl,rfl,nofun,⟨[],all⟩⟩,by simp⟩

variable {m : Nat} {ahead : List Entry}

-- The current outer record is done with.
theorem Goes.passed (goes : q.Goes t (o::ahead) left m) : q.Goes t ahead left m := by
  refine goes.imp_left fun ⟨own,sofar,count⟩ => ⟨own,{sofar with later := ?_},count⟩
  refine List.IsSuffix.trans ?_ sofar.later
  rw [List.filter_cons]
  split
  · exact List.suffix_cons _ _
  · exact List.suffix_refl _

theorem Goes.insert (goes : q.Goes t (o::co.remaining) ((o,e)::q.leftAt t o co c) m) (sound : q.Sound)
    (places : q.Places t o co c) (current : c.Current e) (width : (q.output o.2 e.2).length = q.width)
    (takes : t.Takes (q.output o.2 e.2) (.ok rid) t') (nodup : (pageNos t'.heap).Nodup)
    (outer : Tail.Watched q.fromOuter q.outer t' (q.output o.2 e.2) (.ok rid) co co')
    (inner : Tail.Watched q.fromInner q.inner t' (q.output o.2 e.2) (.ok rid) c c') :
    ∃ m', (q.Calm → m' < m) ∧ q.Goes t' (o::co'.remaining) (q.leftAt t' o co' c') m' := by
  rcases goes with ⟨own,sofar,count⟩ | ⟨not_calm,beyond⟩
  · have in_range := (List.getElem?_eq_some_iff.mp sofar.head.2.2.2.2).1
    refine ⟨m - 1,fun _ => by omega,(sofar.insert sound places current width takes nodup outer inner).imp_left ?_⟩
    intro goes_on
    refine ⟨_,goes_on,?_⟩
    rw [List.length_append,List.length_singleton]
    omega
  · exact ⟨m,fun calm => absurd calm not_calm,.inr ⟨not_calm,beyond.insert places takes nodup outer inner⟩⟩

theorem Goes.some_pair (goes : q.Goes t ahead left m) (some_left : left ≠ []) : q.pairs ≠ [] := by
  intro nothing
  rcases goes with ⟨own,sofar,_⟩ | ⟨not_calm,_⟩
  · exact some_left (by rw [sofar.left,nothing,List.drop_nil])
  · refine not_calm (.inr fun k o e at_k => ?_)
    rw [nothing] at at_k
    cases at_k

theorem Goes.le (goes : q.Goes t ahead left m) (calm : q.Calm) : m ≤ q.tuples.length := by
  rcases goes with ⟨own,_,count⟩ | ⟨not_calm,_⟩
  · omega
  · exact absurd calm not_calm

theorem Goes.first_part (goes : q.Goes t ahead left m) (calm : q.Calm) :
    ∃ new, Gains q.result t.heap new ∧ new <+: q.tuples := by
  rcases goes with ⟨own,sofar,_⟩ | ⟨not_calm,_⟩
  · refine ⟨own.map Prod.snd,sofar.grown.appending.gains,?_⟩
    rw [sofar.tuples]
    exact List.take_prefix _ _
  · exact absurd calm not_calm

-- An insert that fails leaves no more than there was.
theorem Goes.refused {status : Status} (goes : q.Goes t ahead left m) (takes : t.Takes bytes (.error status) t')
    (calm : q.Calm) : ∃ new, Gains q.result t'.heap new ∧ new <+: q.tuples := by
  rcases goes with ⟨own,sofar,_⟩ | ⟨not_calm,_⟩
  · refine ⟨own.map Prod.snd,(sofar.grown.refused takes).gains,?_⟩
    rw [sofar.tuples]
    exact List.take_prefix _ _
  · exact absurd calm not_calm

-- With nothing left to come, nothing but derived tuples has come only when none was met.
theorem Goes.done (goes : q.Goes t ahead [] m) {new : List (List UInt8)} (gains : Gains q.result t.heap new)
    (only : new <+: q.tuples) : q.Calm := by
  rcases goes with ⟨own,sofar,count⟩ | ⟨_,beyond⟩
  · refine .inr fun k o e at_k => ?_
    have in_range := (List.getElem?_eq_some_iff.mp at_k).1
    have none_left := congrArg List.length sofar.left
    rw [List.length_drop,List.length_nil] at none_left
    exact sofar.unmet k (by omega) o e at_k
  · have count := gains.perm.length_eq
    have few := only.length_le
    rw [List.length_append,List.length_map,List.length_map] at count
    unfold Over at beyond
    rw [List.length_nil] at beyond
    omega

end Derivation
end Minirel
