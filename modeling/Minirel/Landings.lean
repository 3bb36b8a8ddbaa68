import Minirel.OpenShelf

-- A list with one more item somewhere in it.
def OneMore {α : Type} (e : α) (l l' : List α) : Prop := ∃ left right, l = left ++ right ∧ l' = left ++ e::right

namespace OneMore

variable {α β : Type} {e : α} {l l' : List α}

theorem mem_iff (more : OneMore e l l') {x : α} : x ∈ l' ↔ x ∈ l ∨ x = e := by
  obtain ⟨left,right,rfl,rfl⟩ := more
  simp only [List.mem_append,List.mem_cons]
  tauto

theorem length (more : OneMore e l l') : l'.length = l.length + 1 := by
  obtain ⟨left,right,rfl,rfl⟩ := more
  simp only [List.length_append,List.length_cons]
  omega

theorem map (more : OneMore e l l') (f : α → β) : OneMore (f e) (l.map f) (l'.map f) := by
  obtain ⟨left,right,rfl,rfl⟩ := more
  exact ⟨left.map f,right.map f,List.map_append,by rw [List.map_append,List.map_cons]⟩

theorem behind (more : OneMore e l l') (front : List α) : OneMore e (front ++ l) (front ++ l') := by
  obtain ⟨left,right,rfl,rfl⟩ := more
  exact ⟨front ++ left,right,by simp,by simp⟩

theorem ahead (more : OneMore e l l') (back : List α) : OneMore e (l ++ back) (l' ++ back) := by
  obtain ⟨left,right,rfl,rfl⟩ := more
  exact ⟨left,right ++ back,by simp,by simp⟩

theorem last (e : α) (l : List α) : OneMore e l (l ++ [e]) := ⟨l,[],by simp,rfl⟩

theorem filter_out (more : OneMore e l l') {p : α → Bool} (refused : p e = false) : l'.filter p = l.filter p := by
  obtain ⟨left,right,rfl,rfl⟩ := more
  rw [List.filter_append,List.filter_append,List.filter_cons_of_neg (by rw [refused]; exact Bool.false_ne_true)]

theorem filter_in (more : OneMore e l l') {p : α → Bool} (accepted : p e = true) :
    OneMore e (l.filter p) (l'.filter p) := by
  obtain ⟨left,right,rfl,rfl⟩ := more
  exact ⟨left.filter p,right.filter p,List.filter_append .., by rw [List.filter_append,List.filter_cons_of_pos
    accepted]⟩

end OneMore

namespace SlotDirectory

variable {α : Type}

-- The free slots below one.
def holesBelow (d : Directory α) (i : Nat) : Nat := (d.take i).countP Option.isNone

theorem firstFree_below {d : Directory α} {i : Nat} (inside : i ≤ d.length) : firstFree d < i ↔ 0 < holesBelow d i := by
  induction d generalizing i with
  | nil =>
    cases Nat.le_zero.mp inside
    simp [holesBelow]
  | cons e rest ih =>
    cases i with
    | zero => simp [holesBelow]
    | succ i =>
      have below := ih (Nat.le_of_succ_le_succ inside)
      cases e with
      | none => simp [firstFree,holesBelow]
      | some x => simpa [firstFree,holesBelow] using below

theorem holesBelow_put (d : Directory α) (v : α) {i : Nat} (inside : i ≤ d.length) :
    holesBelow (put d v) i = holesBelow d i - 1 := by
  induction d generalizing i with
  | nil =>
    cases Nat.le_zero.mp inside
    simp [holesBelow]
  | cons e rest ih =>
    cases i with
    | zero => simp [holesBelow]
    | succ i =>
      have below := ih (Nat.le_of_succ_le_succ inside)
      cases e with
      | none => simp [put,holesBelow]
      | some x => simpa [put,holesBelow] using below

theorem holesBelow_mono (d : Directory α) {i j : Nat} (le : i ≤ j) : holesBelow d i ≤ holesBelow d j :=
  List.Sublist.countP_le (List.take_sublist_take_left le)

theorem liveFrom_put (d : Directory α) (v : α) (k : Nat) :
    (firstFree d < k → liveFrom (put d v) k = liveFrom d k) ∧
      (k ≤ firstFree d → OneMore (firstFree d,v) (liveFrom d k) (liveFrom (put d v) k)) := by
  obtain ⟨low,high,old,new,_⟩ := entries_put d v
  have more : OneMore (firstFree d,v) (entries d) (entries (put d v)) := ⟨low,high,old,new⟩
  constructor
  · intro below
    exact more.filter_out (decide_eq_false (Nat.not_le_of_lt below))
  · intro from_k
    exact more.filter_in (decide_eq_true from_k)

end SlotDirectory

namespace Minirel
open ByteMemory SlotDirectory Page Heap

theorem spaceLeft_hole {d : Slots} (hole : firstFree d < d.length) (bytes : List UInt8) :
    spaceLeft (put d bytes) = spaceLeft d - bytes.length := by
  obtain ⟨low,high,old,new,_⟩ := entries_put d bytes
  have used : dataUsed (put d bytes) = dataUsed d + bytes.length := by
    rw [dataUsed,dataUsed,old,new]
    simp [size]
    omega
  have slots : (put d bytes).length = d.length := by rw [length_put,if_neg (Nat.ne_of_lt hole)]
  rw [spaceLeft,spaceLeft,used,slots]
  omega

namespace Heap

variable {before before' : Heap} {n n' : Int} {d d' : Slots} {bytes : List UInt8} {rid : RID} {status : Status}

theorem pageRecords_more (n : Int) (d : Slots) (bytes : List UInt8) :
    OneMore (⟨n,firstFree d⟩,bytes) (pageRecords n d) (pageRecords n (put d bytes)) := by
  obtain ⟨low,high,old,new,_⟩ := entries_put d bytes
  exact OneMore.map ⟨low,high,old,new⟩ _

-- What is told of a record is where it lies.
theorem Lands.more (lands : Lands before n d bytes (.ok rid) before' n' d') :
    OneMore (rid,bytes) (records (before ++ [(n,d)])) (records (before' ++ [(n',d')])) := by
  cases lands with
  | here room =>
    rw [records_append,records_append,records_cons,records_cons]
    exact ((pageRecords_more n d bytes).ahead _).behind _
  | newPage m full fresh =>
    rw [records_append (before ++ [(n,d)])]
    exact OneMore.last _ _

theorem Lands.fits (lands : Lands before n d bytes (.ok rid) before' n' d') : bytes.length + slotSize ≤ dataSize := by
  cases lands with
  | here room =>
    have slots : (0 : Int) ≤ slotSize * d.length := by positivity
    unfold spaceLeft at room
    omega
  | newPage m full fresh fits => exact fits

theorem Lands.refuses (lands : Lands before n d bytes (.error status) before' n' d') :
    status ≠ .ok ∧ records (before' ++ [(n',d')]) = records (before ++ [(n,d)]) := by
  cases lands with
  | refused _ failed => exact ⟨failed,rfl⟩
  | linked m _ failed fresh => exact ⟨failed,records_linked _ _⟩

theorem Lands.appending {heap : Heap} {new : List (List UInt8)} {result : Except Status RID}
    (lands : Lands before n d bytes result before' n' d') (nodup : (pageNos (before ++ [(n,d)])).Nodup)
    (appending : Appending heap before n d new) :
    (∀ rid, result = .ok rid → Appending heap before' n' d' (new ++ [bytes])) ∧
      ∀ status, result = .error status → Appending heap before' n' d' new := by
  cases lands with
  | here room => exact ⟨fun _ _ => appending.put nodup bytes,nofun⟩
  | newPage m full fresh =>
    refine ⟨fun _ _ => (appending.link n').put ?_ bytes,nofun⟩
    rw [pageNos_append]
    exact List.nodup_append.mpr ⟨nodup,List.nodup_singleton n',fun i member j one same => fresh (by
      cases List.mem_singleton.mp one
      exact (show i = n' from same) ▸ member)⟩
  | refused status failed => exact ⟨nofun,fun _ _ => appending⟩
  | linked m status failed fresh => exact ⟨nofun,fun _ _ => appending.link n'⟩

end Heap

-- Where the cursor of an open scan is in the file as it is after an insert. The scan comes to the new
-- record unless that lies behind the cursor.
structure Cursor.Follows (c : Cursor) (bytes : List UInt8) (result : Except Status RID) (c' : Cursor) : Prop where
  pageNo : c'.pageNo = c.pageNo
  next : c'.next = c.next
  current : ∀ e, c.Current e → c'.Current e
  gained : ∀ rid, result = .ok rid → c'.remaining = c.remaining ∨ OneMore (rid,bytes) c.remaining c'.remaining

theorem Cursor.follows_same (c : Cursor) (bytes : List UInt8) (result : Except Status RID) :
    c.Follows bytes result c := ⟨rfl,rfl,fun _ current => current,fun _ _ => .inl rfl⟩

-- More pages behind the cursor, that hold the new record when there is one.
theorem Cursor.follows_after (c : Cursor) {bytes : List UInt8} {result : Except Status RID} {after : Heap}
    (gained : ∀ rid, result = .ok rid → OneMore (rid,bytes) (records c.after) (records after)) :
    c.Follows bytes result {c with after := after} :=
  ⟨rfl,rfl,fun _ current => current,fun rid done => .inr ((gained rid done).behind _)⟩

theorem Cursor.lands {c : Cursor} {before before' : Heap} {n n' : Int} {d d' : Slots} {bytes : List UInt8}
    {result : Except Status RID} (lands : Lands before n d bytes result before' n' d')
    (whole : c.heap = before ++ [(n,d)]) :
    ∃ c' : Cursor, c'.heap = before' ++ [(n',d')] ∧ c.Follows bytes result c' := by
  obtain ⟨front,p,slots,after,next⟩ := c
  dsimp only [heap] at whole
  rcases List.eq_nil_or_concat after with rfl | ⟨after,⟨m,e⟩,rfl⟩
  · -- The scan stands on the last page.
    obtain ⟨rfl,same⟩ := List.append_inj' whole rfl
    cases same
    cases lands with
    | here room =>
      obtain ⟨low,high⟩ := liveFrom_put d bytes next
      refine ⟨⟨before',n,put d bytes,[],next⟩,rfl,rfl,rfl,?_,?_⟩
      · rintro e ⟨i,at_rid,past,found⟩
        have taken : i ≠ firstFree d := by
          rintro rfl
          rw [lookup_firstFree] at found
          cases found
        exact ⟨i,at_rid,past,by rw [lookup_put,if_neg taken]; exact found⟩
      · rintro rid ⟨⟩
        simp only [remaining,rest,records_nil,List.append_nil]
        rcases Nat.lt_or_ge (firstFree d) next with below | from_next
        · exact .inl (by rw [low below])
        · exact .inr ((high from_next).map _)
    | newPage m full fresh =>
      refine ⟨⟨front,n,d,[(n',put [] bytes)],next⟩,by simp [heap],follows_after ⟨front,n,d,[],next⟩ ?_⟩
      rintro rid ⟨⟩
      exact OneMore.last _ _
    | refused status failed => exact ⟨⟨before',n,d,[],next⟩,rfl,follows_same _ _ _⟩
    | linked m status failed fresh =>
      exact ⟨⟨front,n,d,[(n',[])],next⟩,by simp [heap],follows_after ⟨front,n,d,[],next⟩ (by rintro _ ⟨⟩)⟩
  · rw [List.concat_eq_append] at whole ⊢
    rw [← List.cons_append,← List.append_assoc] at whole
    obtain ⟨rfl,same⟩ := List.append_inj' whole rfl
    cases same
    cases lands with
    | here room =>
      refine ⟨⟨front,p,slots,after ++ [(n,put d bytes)],next⟩,by simp [heap],follows_after ⟨front,p,slots,_,
        next⟩ ?_⟩
      rintro rid ⟨⟩
      simp only [records_append,records_cons]
      exact ((pageRecords_more n d bytes).ahead _).behind _
    | newPage m full fresh =>
      refine ⟨⟨front,p,slots,(after ++ [(n,d)]) ++ [(n',put [] bytes)],next⟩,by simp [heap],
        follows_after ⟨front,p,slots,_,next⟩ ?_⟩
      rintro rid ⟨⟩
      rw [records_append (after ++ [(n,d)])]
      exact OneMore.last _ _
    | refused status failed => exact ⟨⟨front,p,slots,after ++ [(n,d)],next⟩,by simp [heap],follows_same _ _ _⟩
    | linked m status failed fresh =>
      exact ⟨⟨front,p,slots,(after ++ [(n,d)]) ++ [(n',[])],next⟩,by simp [heap],
        follows_after ⟨front,p,slots,_,next⟩ (by rintro _ ⟨⟩)⟩

namespace Heap

variable {heap before before' : Heap} {n n' : Int} {d d' : Slots} {w k : Nat} {bytes : List UInt8} {rid : RID}

-- With k records of this width laid into the free slots of a page, the next goes into one below slot i.
def Fits (d : Slots) (w k i : Nat) : Prop := k < holesBelow d i ∧ ((k + 1) * w + slotSize : Nat) ≤ spaceLeft d

instance (d : Slots) (w k i : Nat) : Decidable (Fits d w k i) := inferInstanceAs (Decidable (_ ∧ _))

-- The record inserted after k others of its width comes to lie before this one, on the same page.
def Before (heap : Heap) (w k : Nat) (rid : RID) : Prop :=
  ∃ p ∈ heap.getLast?, rid.pageNo = p.1 ∧ Fits p.2 w k rid.slotNo.toNat

theorem before_last {d0 : Slots} : Before (before ++ [(n,d0)]) w k rid ↔ rid.pageNo = n ∧
    Fits d0 w k rid.slotNo.toNat := by
  simp [Before]

theorem Fits.earlier {d : Slots} {i : Nat} (fits : Fits d w (k + 1) i) : Fits d w k i := by
  obtain ⟨holes,room⟩ := fits
  refine ⟨by omega,?_⟩
  have less : (k + 1) * w ≤ (k + 1 + 1) * w := Nat.mul_le_mul_right w (by omega)
  omega

-- What k records of one width have made of the last page, or that there is a page behind it.
inductive Filled (heap : Heap) (w k : Nat) : Heap → Int → Slots → Prop where
  | same (before : Heap) (n : Int) (d0 d : Slots) (last : heap = before ++ [(n,d0)])
      (holes : ∀ i ≤ d0.length, holesBelow d i = holesBelow d0 i - k) (longer : d0.length ≤ d.length)
      (space : k ≤ holesBelow d0 d0.length → spaceLeft d = spaceLeft d0 - k * w) : Filled heap w k before n d
  | past (before0 more : Heap) (n0 n : Int) (d0 d1 d : Slots) (last : heap = before0 ++ [(n0,d0)])
      (new : n ∉ pageNos heap) (full : ∀ i, ¬ Fits d0 w k i) : Filled heap w k (before0 ++ (n0,d1)::more) n d

theorem Filled.start (split : heap = before ++ [(n,d)]) (w : Nat) : Filled heap w 0 before n d :=
  .same before n d d split (fun _ _ => rfl) (Nat.le_refl _) fun _ => by simp

theorem Filled.step (filled : Filled heap w k before n d) (width : bytes.length = w)
    (lands : Lands before n d bytes (.ok rid) before' n' d') : Filled heap w (k + 1) before' n' d' := by
  cases filled with
  | same _ _ d0 _ last holes longer space =>
    have room_left : ∀ i, k < holesBelow d0 i → spaceLeft d = spaceLeft d0 - k * w := fun i below => by
      refine space (Nat.le_trans (Nat.le_of_lt below) ?_)
      rw [holesBelow,holesBelow,List.take_length]
      exact List.Sublist.countP_le (List.take_sublist i d0)
    cases lands with
    | here room =>
      refine .same before n d0 _ last (fun i inside => ?_) ?_ fun enough => ?_
      · rw [holesBelow_put d bytes (Nat.le_trans inside longer),holes i inside]
        omega
      · rw [length_put]
        split <;> omega
      · have hole : firstFree d < d0.length := by
          rw [firstFree_below longer,holes _ (Nat.le_refl _)]
          omega
        rw [spaceLeft_hole (Nat.lt_of_lt_of_le hole longer),space (by omega),width,Nat.cast_add,Nat.cast_one,
          Int.add_mul,Int.one_mul]
        omega
    | newPage m full fresh =>
      refine .past before [] n n' d0 d _ last (by rw [last]; simpa using fresh) fun i fits => ?_
      obtain ⟨below,room⟩ := fits.earlier
      rw [room_left i below,width] at full
      push_cast [Nat.add_mul,Nat.one_mul] at room
      omega
  | past before0 more n0 _ d0 d1 _ last new full =>
    have later : ∀ i, ¬ Fits d0 w (k + 1) i := fun i fits => full i fits.earlier
    cases lands with
    | here room => exact .past before0 more n0 n d0 d1 _ last new later
    | newPage m spent fresh =>
      rw [List.append_assoc,List.cons_append]
      refine .past before0 (more ++ [(n,d)]) n0 n' d0 d1 _ last (fun member => fresh ?_) later
      rw [last] at member
      simp only [pageNos_append,pageNos_cons,List.mem_append,List.mem_cons] at member ⊢
      tauto

-- A record there was has the next one before it on its page as the free slots tell.
theorem Filled.before_iff (filled : Filled heap w k before n d) (width : bytes.length = w)
    (lands : Lands before n d bytes (.ok rid) before' n' d') (nodup : (pageNos heap).Nodup) {e : Entry}
    (old : e ∈ records heap) : (rid.pageNo = e.1.pageNo ∧ rid.slotNo < e.1.slotNo) ↔ Before heap w k e.1 := by
  obtain ⟨⟨p,slots⟩,inside,here⟩ := List.mem_flatMap.mp old
  obtain ⟨i,at_rid,found⟩ := mem_pageRecords.mp here
  have on_page : e.1.pageNo ∈ pageNos heap := by
    rw [at_rid]
    exact List.mem_map.mpr ⟨(p,slots),inside,rfl⟩
  cases filled with
  | same _ _ d0 _ last holes longer space =>
    subst last
    have room_left : k < holesBelow d0 i → i ≤ d0.length → spaceLeft d = spaceLeft d0 - k * w := fun below le =>
      space (Nat.le_trans (Nat.le_of_lt below) (holesBelow_mono d0 le))
    rw [before_last,at_rid]
    dsimp only
    by_cases same : p = n
    · subst same
      -- the pages have numbers of their own, so this is the last one
      have slots_last : slots = d0 := by
        rw [pageNos_append,List.nodup_append] at nodup
        rcases List.mem_append.mp inside with earlier | now
        · exact absurd rfl (nodup.2.2 p (List.mem_map.mpr ⟨(p,slots),earlier,rfl⟩) p (by simp))
        · cases List.mem_singleton.mp now
          rfl
      subst slots_last
      have bound : i ≤ slots.length := Nat.le_of_lt (lookup_bound found)
      have below := firstFree_below (Nat.le_trans bound longer)
      rw [holes i bound] at below
      have left := fun less => room_left less bound
      cases lands with
      | here room =>
        simp only [true_and,Nat.cast_lt,Int.toNat_natCast,Fits,below]
        refine ⟨fun less => ⟨by omega,?_⟩,fun fits => by omega⟩
        have space := left (by omega)
        rw [width] at room
        push_cast [Nat.add_mul,Nat.one_mul]
        omega
      | newPage m full fresh =>
        refine iff_of_false (fun both => fresh ?_) fun both => ?_
        · rw [show n' = p from both.1]
          simp
        · obtain ⟨_,less,room⟩ := both
          rw [left less,width] at full
          push_cast [Nat.add_mul,Nat.one_mul] at room
          omega
    · refine iff_of_false (fun both => ?_) fun both => same both.1
      cases lands with
      | here room => exact same both.1.symm
      | newPage m full fresh =>
        refine fresh ?_
        rw [at_rid] at on_page
        rw [show n' = p from both.1]
        simpa using on_page
  | past before0 more n0 _ d0 d1 _ last new full =>
    subst last
    refine iff_of_false (fun both => ?_) fun before => full _ (before_last.mp before).2
    rw [← both.1] at on_page
    cases lands with
    | here room => exact new on_page
    | newPage m spent fresh =>
      refine fresh ?_
      simp only [pageNos_append,pageNos_cons,List.mem_append,List.mem_cons] at on_page ⊢
      tauto

end Heap
end Minirel
