import Minirel.Catalog

namespace Minirel
open ByteMemory SlotDirectory Page Heap

-- The rows of one relation in a catalog, in scan order. A name as long as a row has no room for
-- its terminator there.
def rows (heap : Heap) (relation : Name) : List Entry :=
  (records heap).filter fun e => relation.length < e.2.length ∧ cstring e.2 = relation

-- The filter of the catalog's methods compares the terminator too, so a name is not taken for
-- one that it begins.
def named (relation : Name) : Condition := ⟨0,relation.length + 1,.string,relation,.eq⟩

theorem strncmp_cstring {relation : Name} (clean : 0 ∉ relation) (row : List UInt8) :
    strncmp (relation.length + 1) row relation = 0 ↔ cstring row = relation := by
  unfold cstring
  induction relation generalizing row with
  | nil =>
    cases row with
    | nil => exact ⟨fun _ => rfl,fun _ => rfl⟩
    | cons x rest =>
      by_cases zero : x = 0
      · subst zero
        exact ⟨fun _ => rfl,fun _ => rfl⟩
      · have positive : x.toNat ≠ 0 := fun same => zero (UInt8.toNat_inj.mp same)
        simp [strncmp,zero,positive]
  | cons y relation ih =>
    rw [List.mem_cons,not_or] at clean
    have nonzero : y ≠ 0 := Ne.symm clean.1
    cases row with
    | nil =>
      have positive : y.toNat ≠ 0 := fun same => nonzero (UInt8.toNat_inj.mp same)
      simp [strncmp,clean.1,positive]
    | cons x rest =>
      rw [strncmp,List.headD_cons,List.headD_cons]
      by_cases same : x = y
      · subst same
        rw [if_neg (not_not_intro rfl),if_neg nonzero,List.tail_cons,List.tail_cons,List.length_cons]
        rw [ih clean.2,List.takeWhile_cons_of_pos (by simpa using nonzero),List.cons.injEq]
        simp
      · have apart : (x.toNat : Int) - y.toNat ≠ 0 := by
          have : x.toNat ≠ y.toNat := fun equal => same (UInt8.toNat_inj.mp equal)
          omega
        rw [if_pos same]
        refine ⟨fun equal => absurd equal apart,fun begins => ?_⟩
        by_cases zero : x = 0
        · rw [zero,List.takeWhile_cons_of_neg (by simp)] at begins
          cases begins
        · rw [List.takeWhile_cons_of_pos (by simpa using zero)] at begins
          exact absurd (List.cons.inj begins).1 same

theorem named_matchRec {relation : Name} (clean : 0 ∉ relation) (row : List UInt8) :
    (named relation).matchRec (.of row) = decide (relation.length < row.length ∧ cstring row = relation) := by
  rw [Condition.matchRec,named,Record.of]
  dsimp only
  by_cases long : relation.length < row.length
  · rw [if_neg (by omega)]
    have eq : Operator.accepts .eq (Datatype.difference .string ((relation.length : Int) + 1).toNat
      (List.drop (Int.toNat 0) row) relation) =
        decide (strncmp (relation.length + 1) row relation = 0) := by
      rw [show ((relation.length : Int) + 1).toNat = relation.length + 1 by omega]
      simp only [Operator.accepts,Datatype.difference,Int.toNat_zero,List.drop_zero]
      generalize strncmp (relation.length + 1) row relation = diff
      by_cases zero : diff = 0
      · subst zero; rfl
      · rw [decide_eq_false zero,beq_eq_false_iff_ne]
        intro same
        exact zero (Int.compare_eq_eq.mp (Option.some.inj same))
    rw [eq]
    simp only [strncmp_cstring clean,long,true_and]
  · rw [if_pos (by omega)]
    simp [long]

theorem filter_named {relation : Name} (clean : 0 ∉ relation) (heap : Heap) :
    (records heap).filter (fun e => HeapFileScan.accepts (some (named relation)) e.2) = rows heap relation := by
  refine List.filter_congr fun e _ => ?_
  rw [HeapFileScan.accepts,Option.all_some,named_matchRec clean]

-- What a loop over rows makes of its state, and the row it stops at.
def walk {α : Type} (visit : α → List UInt8 → α × Bool) : List Entry → α → α × Option Entry
  | [],a => (a,none)
  | e::rest,a => if (visit a e.2).2 then ((visit a e.2).1,some e) else walk visit rest (visit a e.2).1

-- Where the loop leaves the scan: on the row it stopped at, or at the end of the file.
def Rests (stop : Option Entry) (status : Status) (s : HeapFileScan) (c : Cursor) : Prop :=
  match stop with
  | none => status = .fileEof
  | some e => status = .ok ∧ c.Current e ∧ s.curRec = e.1

variable {db : Db} {catalog relation : Name} {b : Pool} {k : Pool.Books} {heap : Heap} {recCnt : Int} {α : Type}
  {size : Nat}

theorem scanRows_spec (db : Db) (catalog : Name) (visit : α → List UInt8 → α × Bool) {s : HeapFileScan}
    {c : Cursor} (turns : Nat) (owned : k.Owned)
    (scanning : HeapFileScan.Scanning k recCnt b s c) (enough : c.remaining.length < turns)
    (width : ∀ e ∈ c.remaining.filter (fun e => s.matchRec (.of e.2)), e.2.length = size) (a : α) :
    ∃ status s' b' c', scanRows catalog size visit turns (db.setPool catalog b) s a =
        .ok (.ok status,(walk visit (c.remaining.filter fun e => s.matchRec (.of e.2)) a).1,s',db.setPool catalog b') ∧
      HeapFileScan.Moves k recCnt b s c b' s' c' ∧
      Rests (walk visit (c.remaining.filter fun e => s.matchRec (.of e.2)) a).2 status s' c' := by
  induction turns generalizing b s c a with
  | zero => cases enough
  | succ turns ih =>
    obtain ⟨b1,s1,c1,moves,finds⟩ := HeapFileScan.scanNext_spec owned scanning
    unfold scanRows
    generalize found : HeapFileScan.scanNext b s = outcome at finds
    cases finds with
    | eof passed done =>
      have nothing := HeapFileScan.filter_passed passed
      rw [nothing]
      refine ⟨.fileEof,s1,b1,c1,?_,moves,rfl⟩
      rw [Db.scanNext_at found]
      rfl
    | record skipped bytes remaining passed accepted current =>
      have next := HeapFileScan.filter_next remaining passed accepted moves.filter
      rw [next] at width ⊢
      have wide : bytes.length = size := width _ (List.mem_cons_self ..)
      have same_width : ¬ (Record.of bytes).length ≠ size := by simpa [Record.of] using wide
      rw [Db.scanNext_at found,ok_bind]
      dsimp only
      rw [Db.getRecord_at,HeapFileScan.getRecord_spec moves.scanning current rfl,ok_bind]
      dsimp only
      rw [if_neg same_width]
      by_cases stop : (visit a bytes).2 = true
      · have walked : walk visit ((s1.curRec,bytes)::c1.remaining.filter fun e => s1.matchRec (.of e.2)) a =
            ((visit a bytes).1,some (s1.curRec,bytes)) := by
          rw [walk,if_pos stop]
        rw [walked]
        refine ⟨.ok,s1,b1,c1,?_,moves,rfl,current,rfl⟩
        simp only [Record.of,stop,if_true]
        rfl
      · have walked : walk visit ((s1.curRec,bytes)::c1.remaining.filter fun e => s1.matchRec (.of e.2)) a =
            walk visit (c1.remaining.filter fun e => s1.matchRec (.of e.2)) (visit a bytes).1 := by
          rw [walk,if_neg stop]
        have shorter : c1.remaining.length < turns := by
          have length := congrArg List.length remaining
          rw [List.length_append,List.length_cons] at length
          omega
        rw [walked]
        obtain ⟨status,s2,b2,c2,scanned,moves2,rests⟩ := ih moves.scanning shorter
          (fun e member => width e (List.mem_cons_of_mem _ member)) (visit a bytes).1
        refine ⟨status,s2,b2,c2,?_,moves.trans moves2,rests⟩
        rw [← scanned]
        simp only [Record.of,stop]
        rfl

theorem openRows_view {old : Pool} (holds : db.Holds catalog k heap recCnt) (found : db.files catalog = some old)
    (relation : Name) :
    ∃ b s c, openRows db catalog relation = .ok (.ok,s,db.setPool catalog b) ∧
      HeapFileScan.Scanning k.opened recCnt b s c ∧
      c.heap = heap ∧ c.remaining = records heap ∧ s.filter = some (named relation) ∧ b.view = old.view := by
  obtain ⟨b,s,c,made,scanning,whole,all,_,view⟩ := Db.newHeapFileScan_view holds found
  have sound : ¬ (((0 : Int) < 0 ∨ (relation.length : Int) + 1 < 1) ∨
      (Datatype.string = .integer ∧ (relation.length : Int) + 1 ≠ 4 ∨ Datatype.string = .float ∧
        (relation.length : Int) + 1 ≠ 4)) := by
    rintro ((low | short) | (wrong | wrong))
    · omega
    · omega
    · cases wrong.1
    · cases wrong.1
  refine ⟨b,_,c,?_,scanning.filtered (some (named relation)),whole,all,rfl,view⟩
  rw [openRows,made]
  simp only [ok_bind,HeapFileScan.startScan,if_neg sound]
  rfl

-- A whole loop over the rows of a relation.
theorem rows_scanned_view {old : Pool} (holds : db.Holds catalog k heap recCnt) (there : db.files catalog = some old)
    (clean : 0 ∉ relation)
    (width : ∀ e ∈ rows heap relation, e.2.length = size) (visit : α → List UInt8 → α × Bool) (a : α) :
    ∃ b s status b' s' c, openRows db catalog relation = .ok (.ok,s,db.setPool catalog b) ∧
      scanRows catalog size visit ((db.setPool catalog b).turns catalog) (db.setPool catalog b) s a =
        .ok (.ok status,(walk visit (rows heap relation) a).1,s',db.setPool catalog b') ∧
      HeapFileScan.Scanning k.opened recCnt b' s' c ∧ c.heap = heap ∧
        Rests (walk visit (rows heap relation) a).2 status s' c ∧
      b'.view = old.view := by
  have owned : k.opened.Owned := holds.2.1
  obtain ⟨b,s,c,opened,scanning,whole,all,filter,view⟩ := openRows_view holds there relation
  have wanted : c.remaining.filter (fun e => s.matchRec (.of e.2)) = rows heap relation := by
    rw [all,← filter_named clean]
    refine List.filter_congr fun e _ => ?_
    rw [HeapFileScan.matchRec_accepts filter]
  have enough : c.remaining.length < (db.setPool catalog b).turns catalog := by
    rw [Db.turns,Db.setPool_same]
    exact scanning.turns.2
  obtain ⟨status,s',b',c',scanned,moves,rests⟩ := scanRows_spec db catalog visit _ owned scanning enough
    (by rw [wanted]; exact width) a
  rw [wanted] at scanned rests
  exact ⟨b,s,status,b',s',c',opened,scanned,moves.scanning,moves.heap.trans whole,rests,moves.view.trans view⟩

theorem rows_scanned (holds : db.Holds catalog k heap recCnt) (clean : 0 ∉ relation)
    (width : ∀ e ∈ rows heap relation, e.2.length = size)
    (visit : α → List UInt8 → α × Bool) (a : α) :
    ∃ b s status b' s' c, openRows db catalog relation = .ok (.ok,s,db.setPool catalog b) ∧
      scanRows catalog size visit ((db.setPool catalog b).turns catalog) (db.setPool catalog b) s a =
        .ok (.ok status,(walk visit (rows heap relation) a).1,s',db.setPool catalog b') ∧
      HeapFileScan.Scanning k.opened recCnt b' s' c ∧ c.heap = heap ∧
        Rests (walk visit (rows heap relation) a).2 status s' c := by
  obtain ⟨old,found,_⟩ := holds.2.2
  obtain ⟨b,s,status,b',s',c,opened,scanned,scanning,whole,rests,_⟩ := rows_scanned_view holds found clean width visit a
  exact ⟨b,s,status,b',s',c,opened,scanned,scanning,whole,rests⟩

theorem closeRows_spec (db : Db) (catalog : Name) {s : HeapFileScan} {c : Cursor} (owned : k.Owned)
    (scanning : HeapFileScan.Scanning k.opened recCnt b s c)
    (status : Status) :
    ∃ b', closeRows (db.setPool catalog b) catalog s status = .ok (status,db.setPool catalog b') ∧ b'.Keeps k ∧
      b'.view = b.view := by
  obtain ⟨s1,b1,b2,ended,deleted,kept,view⟩ := db.end_spec catalog owned scanning
  refine ⟨b2,?_,kept,view⟩
  rw [closeRows,ended,ok_bind]
  dsimp only
  rw [deleted]
  by_cases fine : status = .ok
  · rw [if_pos fine,fine]; rfl
  · rw [if_neg fine]; rfl

-- A relation's attributes as the catalog lists them, and what getInfo leaves in its record.
def attributes (heap : Heap) (relation : Name) : List AttrDesc := (rows heap relation).map fun e => AttrDesc.ofBytes e.2

def attrOf (heap : Heap) (relation attrName : Name) : Option AttrDesc :=
  (attributes heap relation).find? fun d => d.attrName = attrName

theorem walk_takeNamed (attrName : Name) (es : List Entry) (record : AttrDesc) :
    (walk (AttrCatalog.takeNamed attrName) es record).1 =
      ((es.map fun e => AttrDesc.ofBytes e.2).find? fun d => d.attrName = attrName).getD
        ((es.map fun e => AttrDesc.ofBytes e.2).getLast?.getD record) ∧
    (walk (AttrCatalog.takeNamed attrName) es record).2 = es.find? fun e => (AttrDesc.ofBytes e.2).attrName =
    attrName := by
  induction es generalizing record with
  | nil => exact ⟨rfl,rfl⟩
  | cons e rest ih =>
    rw [List.map_cons,List.find?_cons,List.find?_cons,walk,AttrCatalog.takeNamed]
    by_cases here : (AttrDesc.ofBytes e.2).attrName = attrName
    · rw [if_pos (decide_eq_true here),decide_eq_true here]
      exact ⟨rfl,rfl⟩
    · rw [if_neg (by simpa using here),decide_eq_false here,List.getLast?_cons,Option.getD_some]
      exact ih _

theorem find_attrOf (heap : Heap) (relation attrName : Name) :
    attrOf heap relation attrName =
      ((rows heap relation).find? fun e => (AttrDesc.ofBytes e.2).attrName = attrName).map fun e =>
      AttrDesc.ofBytes e.2 := by
  rw [attrOf,attributes,List.find?_map]
  rfl

theorem walk_takeAll (es : List Entry) (attrs : List AttrDesc) :
    walk AttrCatalog.takeAll es attrs = (attrs ++ es.map fun e => AttrDesc.ofBytes e.2,none) := by
  induction es generalizing attrs with
  | nil => rw [walk,List.map_nil,List.append_nil]
  | cons e rest ih =>
    rw [walk,AttrCatalog.takeAll,if_neg Bool.false_ne_true,ih,List.map_cons,List.append_assoc]
    rfl

-- The attribute catalog: every row has its size.
def Rows (heap : Heap) (size : Nat) : Prop := ∀ e ∈ records heap, e.2.length = size

theorem Rows.width (all : Rows heap size) (relation : Name) : ∀ e ∈ rows heap relation, e.2.length = size :=
  fun e member => all e (List.mem_of_mem_filter member)

theorem attrOf_mem {attrName : Name} {d : AttrDesc} (found : attrOf heap relation attrName = some d) :
    d ∈ attributes heap relation ∧ d.attrName = attrName :=
  ⟨List.mem_of_find?_eq_some found,by simpa using List.find?_some found⟩

theorem attributes_relName {d : AttrDesc} (member : d ∈ attributes heap relation) : d.relName = relation := by
  obtain ⟨e,inside,rfl⟩ := List.mem_map.mp member
  have kept := (List.mem_filter.mp inside).2
  exact (of_decide_eq_true kept).2

-- Which attributes a catalog lists depends on its rows' bytes only.
theorem attributes_of_bytes {recs : List (List UInt8)} (same : (records heap).map Prod.snd = recs) (relation : Name) :
    attributes heap relation = (recs.filter fun r => relation.length < r.length ∧ cstring r = relation).map
      AttrDesc.ofBytes := by
  subst same
  rw [attributes,rows,List.filter_map,List.map_map]
  rfl

theorem rows_of_bytes {recs : List (List UInt8)} (same : (records heap).map Prod.snd = recs)
    (all : ∀ r ∈ recs, r.length = size) :
    Rows heap size := by
  subst same
  exact fun e member => all e.2 (List.mem_map_of_mem member)

-- A catalog that was read and given back as it was.
theorem Db.Holds.restored (holds : db.Holds catalog k heap recCnt) {b b' : Pool} {s : HeapFileScan} {c : Cursor}
    (scanning : HeapFileScan.Scanning k.opened recCnt b s c) (whole : c.heap = heap) (kept : b'.Keeps k)
    (view : b'.view = b.view) :
    (db.setPool catalog b').Holds catalog k heap recCnt := by
  refine Db.holds_setPool holds.1 holds.2.1 kept ?_
  rw [view,← whole]
  exact scanning.stored

namespace AttrCatalog

theorem getInfo_spec {attrName : Name} (holds : db.Holds attrCatName k heap recCnt) (wide : Rows heap AttrDesc.size)
    (clean : 0 ∉ relation)
    (relation_given : relation ≠ []) (attr_given : attrName ≠ []) (record : AttrDesc) :
    ∃ b, getInfo db relation attrName record =
      .ok (if (attrOf heap relation attrName).isSome then .ok else .attrNotFound,
        (attrOf heap relation attrName).getD ((attributes heap relation).getLast?.getD record),db.setPool
        attrCatName b) ∧
      (db.setPool attrCatName b).Holds attrCatName k heap recCnt := by
  obtain ⟨b1,s1,status,b2,s2,c,opened,scanned,scanning,whole,rests⟩ :=
    rows_scanned holds clean (wide.width relation) (takeNamed attrName) record
  obtain ⟨left,stop⟩ := walk_takeNamed attrName (rows heap relation) record
  obtain ⟨b3,closed,kept,view⟩ := closeRows_spec db attrCatName holds.2.1 scanning
    (if status = .fileEof then .attrNotFound else status)
  have outcome : (if status = .fileEof then .attrNotFound else status) =
      if (attrOf heap relation attrName).isSome then .ok else .attrNotFound := by
    rw [stop] at rests
    rw [find_attrOf,Option.isSome_map]
    cases found : (rows heap relation).find? fun e => (AttrDesc.ofBytes e.2).attrName = attrName with
    | none =>
      rw [found] at rests
      cases (rests : status = .fileEof)
      rfl
    | some e =>
      rw [found] at rests
      cases (rests.1 : status = .ok)
      rfl
  have given : ¬ (relation = [] ∨ attrName = []) := fun empty => empty.elim relation_given attr_given
  refine ⟨b3,?_,holds.restored scanning whole kept view⟩
  rw [outcome] at closed
  rw [getInfo,if_neg given,opened,ok_bind]
  dsimp only
  rw [if_neg (not_not_intro rfl),scanned,ok_bind]
  dsimp only
  rw [outcome,closed,ok_bind,left]
  rfl

theorem getRelInfo_view {old : Pool} (holds : db.Holds attrCatName k heap recCnt)
    (found : db.files attrCatName = some old)
    (wide : Rows heap AttrDesc.size) (clean : 0 ∉ relation) (relation_given : relation ≠ []) :
    ∃ b, getRelInfo db relation = .ok (if attributes heap relation = [] then .relNotFound else .ok,
      attributes heap relation,
        db.setPool attrCatName b) ∧ (db.setPool attrCatName b).Holds attrCatName k heap recCnt ∧ b.view = old.view := by
  obtain ⟨b1,s1,status,b2,s2,c,opened,scanned,scanning,whole,rests,unchanged⟩ :=
    rows_scanned_view holds found clean (wide.width relation) takeAll []
  rw [walk_takeAll,List.nil_append] at scanned rests
  cases (rests : status = .fileEof)
  obtain ⟨b3,closed,kept,view⟩ := closeRows_spec db attrCatName holds.2.1 scanning
    (if attributes heap relation = [] then .relNotFound else .ok)
  refine ⟨b3,?_,holds.restored scanning whole kept view,view.trans unchanged⟩
  rw [getRelInfo,if_neg relation_given,opened,ok_bind]
  dsimp only
  rw [if_neg (not_not_intro rfl),scanned,ok_bind]
  dsimp only
  rw [if_pos rfl]
  rw [attributes] at closed ⊢
  rw [closed,ok_bind]
  rfl

theorem getRelInfo_spec (holds : db.Holds attrCatName k heap recCnt) (wide : Rows heap AttrDesc.size)
    (clean : 0 ∉ relation)
    (relation_given : relation ≠ []) :
    ∃ b, getRelInfo db relation = .ok (if attributes heap relation = [] then .relNotFound else .ok,
      attributes heap relation,
        db.setPool attrCatName b) ∧ (db.setPool attrCatName b).Holds attrCatName k heap recCnt := by
  obtain ⟨old,found,_⟩ := holds.2.2
  obtain ⟨b,asked,holds',_⟩ := getRelInfo_view holds found wide clean relation_given
  exact ⟨b,asked,holds'⟩

-- Nothing in the directory changes for a reader when the catalog is asked.
theorem getInfo_stands {shelf : Shelf} {cat : HeldFile} {attrName : Name} (stands : db.Stands shelf)
    (catalog : shelf attrCatName = some cat)
    (wide : Rows cat.heap AttrDesc.size) (clean : 0 ∉ relation) (relation_given : relation ≠ [])
    (attr_given : attrName ≠ [])
    (record : AttrDesc) :
    ∃ db', getInfo db relation attrName record =
      .ok (if (attrOf cat.heap relation attrName).isSome then .ok else .attrNotFound,
        (attrOf cat.heap relation attrName).getD ((attributes cat.heap relation).getLast?.getD record),db') ∧
        db'.Stands shelf := by
  obtain ⟨b,asked,holds⟩ := getInfo_spec (stands attrCatName cat catalog) wide clean relation_given attr_given record
  exact ⟨_,asked,stands.same catalog holds⟩

theorem getInfo_found {shelf : Shelf} {cat : HeldFile} {attrName : Name} {d : AttrDesc} (stands : db.Stands shelf)
    (catalog : shelf attrCatName = some cat) (wide : Rows cat.heap AttrDesc.size) (clean : 0 ∉ relation)
    (relation_given : relation ≠ [])
    (attr_given : attrName ≠ []) (found : attrOf cat.heap relation attrName = some d) (record : AttrDesc) :
    ∃ db', getInfo db relation attrName record = .ok (.ok,d,db') ∧ db'.Stands shelf := by
  obtain ⟨db',asked,stands'⟩ := getInfo_stands stands catalog wide clean relation_given attr_given record
  rw [found] at asked
  exact ⟨db',asked,stands'⟩

end AttrCatalog

namespace RelCatalog

theorem getInfo_view {old : Pool} (holds : db.Holds relCatName k heap recCnt) (there : db.files relCatName = some old)
    (wide : Rows heap RelDesc.size) (clean : 0 ∉ relation) (relation_given : relation ≠ []) (record : RelDesc) :
    ∃ b, getInfo db relation record = .ok (if rows heap relation = [] then .relNotFound else .ok,
        ((rows heap relation).head?.map fun e => RelDesc.ofBytes e.2).getD record,db.setPool relCatName b) ∧
      (db.setPool relCatName b).Holds relCatName k heap recCnt ∧ b.view = old.view := by
  obtain ⟨b1,s1,status,b2,s2,c,opened,scanned,scanning,whole,rests,unchanged⟩ :=
    rows_scanned_view holds there clean (wide.width relation) takeFirst record
  obtain ⟨b3,closed,kept,view⟩ := closeRows_spec db relCatName holds.2.1 scanning
    (if status = .fileEof then .relNotFound else status)
  refine ⟨b3,?_,holds.restored scanning whole kept view,view.trans unchanged⟩
  rw [getInfo,if_neg relation_given,opened,ok_bind]
  dsimp only
  rw [if_neg (not_not_intro rfl),scanned,ok_bind]
  dsimp only
  rw [closed,ok_bind]
  cases found : rows heap relation with
  | nil =>
    rw [found] at rests
    cases (rests : status = .fileEof)
    rfl
  | cons e rest =>
    rw [found] at rests
    cases (rests.1 : status = .ok)
    rfl

theorem getInfo_spec (holds : db.Holds relCatName k heap recCnt) (wide : Rows heap RelDesc.size) (clean : 0 ∉ relation)
    (relation_given : relation ≠ []) (record : RelDesc) :
    ∃ b, getInfo db relation record = .ok (if rows heap relation = [] then .relNotFound else .ok,
        ((rows heap relation).head?.map fun e => RelDesc.ofBytes e.2).getD record,db.setPool relCatName b) ∧
      (db.setPool relCatName b).Holds relCatName k heap recCnt := by
  obtain ⟨old,found,_⟩ := holds.2.2
  obtain ⟨b,asked,holds',_⟩ := getInfo_view holds found wide clean relation_given record
  exact ⟨b,asked,holds'⟩

end RelCatalog
-- Relation R has the int attributes a and b and one record, S has a, and two records; T is empty.
def sampleTables : List (Name × List (List UInt8)) :=
  [(attrCatName,[AttrDesc.bytes ⟨[82],[97],0,1,4⟩,AttrDesc.bytes ⟨[82],[98],4,1,4⟩,AttrDesc.bytes ⟨[83],[97],0,1,4⟩]),
    ([82],[[1,0,0,0,2,0,0,0]]),([83],[[1,0,0,0],[3,0,0,0]]),([84],[])]

def sampleDb : Db := Db.holding (fun _ _ => zero 1024) ⟨HeapFile.fresh 0 0,none,0,nullRid⟩ sampleTables

theorem sampleTables_load : Db.Loads (fun _ _ => zero 1024) sampleTables := by decide +kernel

theorem sampleDb_stands : ∃ shelf cat r s t, sampleDb.Stands shelf ∧ shelf attrCatName = some cat ∧
    Rows cat.heap AttrDesc.size ∧
    shelf [82] = some r ∧ shelf [83] = some s ∧ shelf [84] = some t ∧
      (records r.heap).map Prod.snd = [[1,0,0,0,2,0,0,0]] ∧
    (records s.heap).map Prod.snd = [[1,0,0,0],[3,0,0,0]] ∧ (records t.heap).map Prod.snd = [] ∧
    attributes cat.heap [82] = [⟨[82],[97],0,1,4⟩,⟨[82],[98],4,1,4⟩] ∧
      attributes cat.heap [83] = [⟨[83],[97],0,1,4⟩] := by
  obtain ⟨shelf,stands,listed⟩ := Db.holding_stands sampleTables_load
  obtain ⟨cat,catalog,attrs⟩ := listed attrCatName _ rfl
  obtain ⟨r,at_r,recs_r⟩ := listed [82] _ rfl
  obtain ⟨s,at_s,recs_s⟩ := listed [83] _ rfl
  obtain ⟨t,at_t,recs_t⟩ := listed [84] _ rfl
  refine ⟨shelf,cat,r,s,t,stands,catalog,rows_of_bytes attrs (by decide),at_r,at_s,at_t,recs_r,recs_s,recs_t,?_,?_⟩
  · rw [attributes_of_bytes attrs]
    decide
  · rw [attributes_of_bytes attrs]
    decide

end Minirel
