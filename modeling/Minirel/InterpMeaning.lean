import Minirel.QueryMeaning
import Minirel.Simulation

namespace Minirel
open ByteMemory SlotDirectory Page Heap Db Interp Database

variable {users : Name → Option HeapFile} {db db' : Db} {shelf shelf' : Shelf} {D D' : Database}
  {relation result : Name} {table : Table} {s : Interpreter} {setting : Setting}
  {infos : List AttrInfo} {request : Request} {attrlist : List (Name × Name)} {qual : Option Qual}
    {relname : Option Name}

theorem Represents.serves (represents : Represents users db shelf D) : Serves users ⟨db,D.counter⟩ D :=
    ⟨⟨shelf,represents⟩,rfl⟩

theorem Represents.shows (represents : Represents users db shelf D) (into : D.tables result = some table)
    (written : Written result)
    (enough : result = tmpResultName → table.tuples.card < setting.turns) :
    ∃ recs s', showResult setting result ⟨db,D.counter⟩ = .ok (recs,s') ∧ answerOf recs = (D.shown result).1 ∧
      Serves users s' (D.shown result).2 := by
  rw [showResult,shown]
  by_cases temporary : result = tmpResultName
  · rw [if_neg (not_not_intro temporary),if_pos temporary,into]
    obtain ⟨recs,db1,printed,answer,represents1⟩ := represents.prints into written setting.turns (enough temporary)
    obtain ⟨db2,shelf2,destroyed,accepted,_⟩ := represents1.destroyRel written.2
    have done : (D.schema.destroy result).1 = .ok := by
      have known := schema_given into
      rw [Schema.destroy,if_neg (by rw [temporary]; decide),if_neg known]
    refine ⟨recs,⟨db2,D.counter⟩,?_,answer,(accepted done).serves⟩
    rw [printed,ok_bind]
    dsimp only
    rw [destroyed,ok_bind]
    rfl
  · rw [if_pos temporary,if_neg temporary]
    exact ⟨[],_,rfl,rfl,represents.serves⟩

-- What a query does before its rows are looked for.
theorem Represents.asks (represents : Represents users db shelf D) (named : relname.getD tmpResultName = result)
    (written : ∀ r ∈ relname, Written r)
    (free : relname = none → D.schema result = none) (arguments : queryArguments setting attrlist qual =
      .ok (.ok (infos,request))) (counter : Int) :
    ∃ db', interpQueryPrinting setting relname attrlist qual ⟨db,counter⟩ =
        (prepareResult request result (if D.schema result = none then none else some (D.schema.described result)) infos
            ⟨db',counter⟩ >>= fun r =>
          if r.1 ≠ .ok then .ok ([],r.2)
          else runRequest setting r.2.db result infos request >>= fun q => showResult setting result
            {r.2 with db := q.2}) ∧
      Represents users db' shelf D := by
  obtain ⟨db1,found,represents1⟩ := represents.resultRelation named written
  rw [if_neg (fun taken => taken.2 (free taken.1))] at found
  refine ⟨db1,?_,represents1⟩
  rw [interpQueryPrinting,found,ok_bind]
  dsimp only
  rw [arguments,ok_bind]
  rfl

namespace Represents

-- The attributes are compared with an existing result's.
theorem compares (represents : Represents users db shelf D) (request : Request) (result : Name)
    (arguments : ∀ info ∈ infos, Argument info) (attrs : List AttrDesc) (counter : Int) :
    ∃ status db', prepareResult request result (some attrs) infos ⟨db,counter⟩ = .ok (status,⟨db',counter⟩) ∧
      (status = .ok ↔ List.Forall₂ D.Matches infos attrs) ∧ Represents users db' shelf D := by
  rw [prepareResult,List.forall₂_iff_zip]
  dsimp only
  by_cases miscounted : infos.length ≠ attrs.length
  · have refused : Status.attrTypeMismatch ≠ .ok := Status.noConfusion
    rw [if_pos miscounted]
    exact ⟨_,db,rfl,⟨fun fine => absurd fine refused,fun all => absurd all.1 miscounted⟩,represents⟩
  · rw [if_neg miscounted]
    have compared : ∀ pair ∈ infos.zip attrs, Argument pair.1 := fun pair member =>
      arguments pair.1 (List.of_mem_zip member).1
    obtain ⟨status,db1,ran,fine,represents1⟩ := represents.matchTypes compared
    rw [ran,ok_bind]
    refine ⟨status,db1,rfl,fine.trans ⟨fun all => ⟨not_not.mp miscounted,fun member => all _ member⟩,
      fun all pair member => all.2 member⟩,represents1⟩

-- The rows come to the result, which is shown when the query has no INTO.
theorem finishes (represents : Represents users db shelf D) (user : User result) (into : D.tables result = some table)
    (written : Written result)
    {sources : List Name} {rows : Multiset (List UInt8)} (asked : Requested setting D infos request sources rows)
    (apart : result ∉ sources)
    (room : D.Room rows.card)
    (untyped : ∀ attr1 op attr2, request = .join attr1 op attr2 → attr1.attrType = attr2.attrType ∧
      attr1.attrLen = attr2.attrLen)
    (width : ∀ descs, List.Forall₂ (fun info d => D.attr info.relName info.attrName = some d) infos descs →
      (descs.map AttrDesc.attrLen).sum = (table.attrs.map AttrInfo.attrLen).sum)
    (enough : result = tmpResultName → (table.tuples + rows).card < setting.turns) :
    ∃ recs s', (runRequest setting db result infos request >>= fun q => showResult setting result ⟨q.2,D.counter⟩) =
      .ok (recs,s') ∧
      answerOf recs = ((D.gain result rows).shown result).1 ∧
        Serves users s' ((D.gain result rows).shown result).2 := by
  obtain ⟨db1,shelf1,ran,represents1⟩ := represents.runs user into asked apart room untyped width
  rw [ran,ok_bind]
  exact represents1.shows (change_self into) written enough

-- A query into a relation that there is.
theorem adds (represents : Represents users db shelf D) (user : User result) (into : D.tables result = some table)
    (written : Written result)
    (attributes : ∀ a ∈ attrlist, Written a.1 ∧ Written a.2) (arguments : queryArguments setting attrlist qual =
      .ok (.ok (infos,request)))
    (matched : List.Forall₂ D.Matches infos (D.schema.described result)) {sources : List Name}
    {rows : Multiset (List UInt8)}
    (asked : Requested setting D infos request sources rows) (apart : result ∉ sources) (room : D.Room rows.card)
    (enough : result = tmpResultName → (table.tuples + rows).card < setting.turns) :
    ∃ recs s', interpQueryPrinting setting (some result) attrlist qual ⟨db,D.counter⟩ = .ok (recs,s') ∧
      answerOf recs = ((D.gain result rows).shown result).1 ∧
        Serves users s' ((D.gain result rows).shown result).2 := by
  obtain ⟨_,named,untyped⟩ := queryArguments_arguments arguments attributes
  have given : (some result).getD tmpResultName = result := rfl
  obtain ⟨db1,ran,represents1⟩ := represents.asks given (by rintro _ ⟨⟩; exact written)
    (by rintro ⟨⟩) arguments D.counter
  rw [if_neg (schema_given into)] at ran
  obtain ⟨status,db2,prepared,fine,represents2⟩ := represents1.compares request result named
    (D.schema.described result) D.counter
  rw [ran,prepared,ok_bind]
  dsimp only
  rw [if_neg (not_not_intro (fine.mpr matched))]
  refine represents2.finishes user into written asked apart room untyped (fun descs found => ?_) enough
  have matched' : List.Forall₂ (fun info attr => ∃ d, D.attr info.relName info.attrName = some d ∧ d.attrLen =
    attr.attrLen) infos
      (D.schema.described result) := matched.imp fun _ _ ⟨d,known,_,len⟩ => ⟨d,known,len⟩
  rw [width_unique found matched',described into,← width_description result]
  rfl

theorem refuses (represents : Represents users db shelf D) (into : D.tables result = some table)
    (written : Written result)
    (attributes : ∀ a ∈ attrlist, Written a.1 ∧ Written a.2) (arguments : queryArguments setting attrlist qual =
      .ok (.ok (infos,request)))
    (other : ¬ List.Forall₂ D.Matches infos (D.schema.described result)) :
    ∃ s', interpQueryPrinting setting (some result) attrlist qual ⟨db,D.counter⟩ = .ok ([],s') ∧ Serves users s' D := by
  obtain ⟨_,named,_⟩ := queryArguments_arguments arguments attributes
  have given : (some result).getD tmpResultName = result := rfl
  obtain ⟨db1,ran,represents1⟩ := represents.asks given (by rintro _ ⟨⟩; exact written)
    (by rintro ⟨⟩) arguments D.counter
  rw [if_neg (schema_given into)] at ran
  obtain ⟨status,db2,prepared,fine,represents2⟩ := represents1.compares request result named
    (D.schema.described result) D.counter
  refine ⟨_,?_,represents2.serves⟩
  rw [ran,prepared,ok_bind]
  dsimp only
  rw [if_pos (mt fine.mp other)]

-- The attributes of a new result are those that it can be created with.
theorem made_columns (represents : Represents users db shelf D) {made : List AttrInfo}
    (all : List.Forall₂ (Made D) infos made) :
    ∀ attr ∈ made, Usable attr ∧ (attr.attrName.length < maxName → Column attr) := by
  induction all with
  | nil => exact fun attr member => absurd member List.not_mem_nil
  | cons here _ ih =>
    refine List.forall_mem_cons.mpr ⟨?_,ih⟩
    obtain ⟨written,d,known,type,len⟩ := here
    obtain ⟨_,attr,usable,type',len'⟩ := represents.known_usable known
    have own := usable.like (type.trans type') (len.trans len')
    exact ⟨own,fun short => ⟨⟨written,short⟩,own.int,Int.le_trans (by decide) own.narrow.1,own.narrow.2⟩⟩

theorem written_result (named : relname.getD tmpResultName = result) (written : ∀ r ∈ relname, Written r) :
    Written result := by
  rw [← named]
  cases relname with
  | none => decide
  | some r => exact written r rfl

-- A query into a relation that is new, as the result of one without INTO is.
theorem produces (represents : Represents users db shelf D) (named : relname.getD tmpResultName = result)
    (written : ∀ r ∈ relname, Written r)
    (new : D.tables result = none) (short : result.length < maxName) (attributes : ∀ a ∈ attrlist, Written a.1 ∧
      Written a.2)
    (arguments : queryArguments setting attrlist qual = .ok (.ok (infos,request))) {made : List AttrInfo}
    {counter : Int}
    (listed : D.resultAttrs request result infos [] D.counter = (.ok,made,counter))
    (shorts : ∀ attr ∈ made, attr.attrName.length < maxName)
    (done : (D.schema.create result made).1 = .ok) (declares : D' = {D.declare result made with counter := counter})
    {sources : List Name}
    {rows : Multiset (List UInt8)} (asked : Requested setting D' infos request sources rows) (apart : result ∉ sources)
    (room : D.Room (made.length + rows.card)) (enough : result = tmpResultName → rows.card < setting.turns) :
    ∃ recs s', interpQueryPrinting setting relname attrlist qual ⟨db,D.counter⟩ = .ok (recs,s') ∧
      answerOf recs = ((D'.gain result rows).shown result).1 ∧
        Serves users s' ((D'.gain result rows).shown result).2 := by
  have unknown := schema_none.mpr new
  have clean := written_result named written
  obtain ⟨few,each,untyped⟩ := queryArguments_arguments arguments attributes
  obtain ⟨_,rfl,all⟩ := resultAttrs_made each listed
  obtain ⟨db1,ran,represents1⟩ := represents.asks named written (fun _ => unknown) arguments D.counter
  obtain ⟨db2,created,represents2⟩ := represents1.createInfos request short each [] D.counter
  have columns := represents.made_columns all
  obtain ⟨db3,shelf3,entered,accepted,_⟩ := represents2.createRel clean.2 (by rw [← all.length_eq]; exact few)
    (fun _ attr member => (columns attr member).2 (shorts attr member)) (fun attr member => (columns attr member).1)
    (fun _ => by unfold Room at room ⊢; omega)
  rw [listed] at created
  have represents3 : Represents users db3 shelf3 D' := by
    rw [declares]
    exact (accepted done).counted rfl (Nat.le_refl _)
  have into : D'.tables result = some ⟨made,0⟩ := by
    rw [declares]
    exact declare_self
  have user : User result := by
    constructor
    · rintro rfl
      exact represents.catalogued.catalogs.1 unknown
    · rintro rfl
      exact represents.catalogued.catalogs.2 unknown
  have width : ∀ descs, List.Forall₂ (fun info d => D'.attr info.relName info.attrName = some d) infos descs →
      (descs.map AttrDesc.attrLen).sum = (made.map AttrInfo.attrLen).sum := by
    intro descs found
    refine width_unique found (all.imp fun info attr here => ?_)
    obtain ⟨_,d,known,_,len⟩ := here
    have other : info.relName ≠ result := by
      intro same
      exact (represents.known_usable known).1 (same ▸ unknown)
    refine ⟨d,?_,len.symm⟩
    rw [← known,declares]
    exact attr_declare other
  have left : D'.Room rows.card := by
    rw [declares]
    unfold Room at room ⊢
    change D.written + made.length + 3 + rows.card ≤ 2 ^ 31
    omega
  have finished := represents3.finishes user into clean asked apart left untyped width
    (fun temporary => by rw [Multiset.zero_add]; exact enough temporary)
  have count : D'.counter = counter := by rw [declares]
  rw [count] at finished
  rw [ran,if_pos unknown,prepareResult]
  dsimp only
  rw [created,ok_bind]
  dsimp only
  rw [if_neg (not_not_intro rfl),entered,ok_bind,done,pure_ok,ok_bind]
  exact finished

-- Its attributes are not all there, or createRel turns them away.
theorem discards (represents : Represents users db shelf D) (named : relname.getD tmpResultName = result)
    (written : ∀ r ∈ relname, Written r)
    (new : D.tables result = none) (short : result.length < maxName) (attributes : ∀ a ∈ attrlist, Written a.1 ∧
      Written a.2)
    (arguments : queryArguments setting attrlist qual = .ok (.ok (infos,request))) {made : List AttrInfo}
    {status : Status} {counter : Int}
    (listed : D.resultAttrs request result infos [] D.counter = (status,made,counter))
    (refused : status ≠ .ok ∨ (D.schema.create result made).1 ≠ .ok) :
    ∃ s', interpQueryPrinting setting relname attrlist qual ⟨db,D.counter⟩ = .ok ([],s') ∧
      Serves users s' {D with counter := counter} := by
  have unknown := schema_none.mpr new
  obtain ⟨few,each,_⟩ := queryArguments_arguments arguments attributes
  obtain ⟨db1,ran,represents1⟩ := represents.asks named written (fun _ => unknown) arguments D.counter
  obtain ⟨db2,created,represents2⟩ := represents1.createInfos request short each [] D.counter
  rw [listed] at created
  rw [ran,if_pos unknown,prepareResult]
  dsimp only
  rw [created,ok_bind]
  dsimp only
  have counted : ∀ {db shelf}, Represents users db shelf D →
      Serves users ⟨db,counter⟩ {D with counter := counter} := fun represents =>
    ⟨⟨_,represents.counted rfl (Nat.le_refl _)⟩,rfl⟩
  by_cases found : status = .ok
  · rw [found] at listed
    obtain ⟨_,rfl,all⟩ := resultAttrs_made each listed
    have failed := refused.resolve_left (not_not_intro found)
    obtain ⟨db3,shelf3,turned,_,same⟩ := represents2.createRel (written_result named written).2
      (by rw [← all.length_eq]; exact few)
      (fun done => absurd done failed) (fun attr member => (represents.made_columns all attr member).1)
      (fun done => absurd done failed)
    refine ⟨⟨db3,counter⟩,?_,counted (same failed)⟩
    rw [if_neg (not_not_intro found),turned,ok_bind,pure_ok,ok_bind]
    dsimp only
    rw [if_pos failed]
  · refine ⟨⟨db2,counter⟩,?_,counted represents2⟩
    rw [if_pos found,pure_ok,ok_bind]
    dsimp only
    rw [if_pos found]

end Represents

theorem query_written (written : ∀ name ∈ (Node.query relname attrlist qual).names, Written name) :
    (∀ r ∈ relname, Written r) ∧ ∀ a ∈ attrlist, Written a.1 ∧ Written a.2 := by
  constructor
  · intro r member
    refine written r ?_
    rw [Node.names,List.mem_append,List.mem_append]
    exact .inl (.inl (Option.mem_toList.mpr member))
  · intro a member
    have listed : ∀ name ∈ [a.1,a.2], Written name := by
      intro name either
      refine written name ?_
      rw [Node.names,List.mem_append,List.mem_append]
      exact .inl (.inr (List.mem_flatMap.mpr ⟨a,member,either⟩))
    exact ⟨listed a.1 (List.mem_cons_self ..),listed a.2 (List.mem_cons_of_mem _ (List.mem_cons_self ..))⟩

-- A statement that prints nothing.
theorem Performs.quiet {n : Node} {s' : Interpreter}
    (quiet : interpPrinting setting n s = (do let s ← interp setting n s; return ([],s)))
    (ran : interp setting n s = .ok s') (serves : Serves users s' D') : Performs users setting n s 0 D' := by
  refine ⟨[],s',?_,rfl,serves⟩
  rw [quiet,ran]
  rfl

-- One statement.
theorem performs {n : Node} {answer : Multiset (List UInt8)} (serves : Serves users s D)
    (written : ∀ name ∈ n.names, Written name)
    (means : Means setting D n answer D') : Performs users setting n s answer D' := by
  obtain ⟨⟨shelf,represents⟩,count⟩ := serves
  obtain ⟨db,counter⟩ := s
  subst count
  cases means with
  | @destroyed relname done =>
    obtain ⟨db1,shelf1,ran,accepted,_⟩ := represents.destroyRel (written relname (List.mem_cons_self ..)).2
    refine .quiet rfl ?_ (accepted done).serves
    rw [interp,ran]
    rfl
  | @notDestroyed relname refused =>
    obtain ⟨db1,shelf1,ran,_,same⟩ := represents.destroyRel (written relname (List.mem_cons_self ..)).2
    refine .quiet rfl ?_ (same refused).serves
    rw [interp,ran]
    rfl
  | @created relname attrlist primattr infos made done room =>
    have few := (createArguments_formatted made).1
    have columns := (createArguments_columns (fun a member =>
      written a.1 (List.mem_cons_of_mem _ (List.mem_map_of_mem member))) made).2
    obtain ⟨db1,shelf1,ran,accepted,_⟩ := represents.createRel (written relname (List.mem_cons_self ..)).2 few
      (fun _ => columns)
      (createArguments_usable made) (fun _ => room)
    refine .quiet rfl ?_ (accepted done).serves
    rw [interp,made,ok_bind]
    dsimp only
    rw [ran]
    rfl
  | @notCreated relname attrlist primattr infos made refused =>
    have few := (createArguments_formatted made).1
    obtain ⟨db1,shelf1,ran,_,same⟩ := represents.createRel (written relname (List.mem_cons_self ..)).2 few
      (fun done => absurd done refused)
      (createArguments_usable made) (fun done => absurd done refused)
    refine .quiet rfl ?_ (same refused).serves
    rw [interp,made,ok_bind]
    dsimp only
    rw [ran]
    rfl
  | badCreate refused =>
    refine .quiet rfl ?_ represents.serves
    rw [interp,refused]
    rfl
  | @inserted relname attrlist infos table user there made complete narrow room =>
    obtain ⟨db1,shelf1,ran,represents1⟩ := represents.inserts user there (written relname (List.mem_cons_self ..)).2
      complete narrow room setting.atof
      setting.stack
    refine .quiet rfl ?_ represents1.serves
    rw [interp,made,ok_bind]
    dsimp only
    rw [ran]
    rfl
  | @notInserted relname attrlist infos table user there made miscounted =>
    obtain ⟨db1,shelf1,ran,represents1⟩ := represents.refusesInsert user there
      (written relname (List.mem_cons_self ..)).2 miscounted setting.atof
      setting.stack
    refine .quiet rfl ?_ represents1.serves
    rw [interp,made,ok_bind]
    dsimp only
    rw [ran]
    rfl
  | badInsert refused =>
    refine .quiet rfl ?_ represents.serves
    rw [interp,refused]
    rfl
  | @emptied relname table user there =>
    obtain ⟨db1,shelf1,ran,represents1⟩ := represents.deletes (d:=⟨[],[],0,0,0⟩) user there
      (written relname (List.mem_cons_self ..)).2
      (fun given => absurd rfl given) setting.atof .lt .string [] setting.attrDesc (fun given => absurd rfl given)
    have nothing : D.keep relname (fun t => ¬ (([] : Name) = [] ∨
      (deleteCondition setting.atof ⟨[],[],0,0,0⟩ .lt .string []).matchRec (.of t))) =
        D.keep relname fun _ => False := keep_congr fun t => ⟨fun kept => kept (.inl rfl),False.elim⟩
    rw [nothing] at represents1
    refine .quiet rfl ?_ represents1.serves
    rw [interp,interpDelete,ran]
    rfl
  | @deleted relname table selattr op value text d user there given known sound =>
    have attr_given : selattr.2 ≠ [] := (written selattr.2 (by simp [Node.names,Qual.names])).1
    obtain ⟨db1,shelf1,ran,represents1⟩ := represents.deletes user there (written relname (List.mem_cons_self ..)).2
      (fun _ => known) setting.atof op value.typeOf text setting.attrDesc (fun _ => sound)
    have others : D.keep relname (fun t => ¬ (selattr.2 = [] ∨
      (deleteCondition setting.atof d op value.typeOf text).matchRec (.of t))) =
        D.keep relname fun t => ¬ (deleteCondition setting.atof d op value.typeOf text).matchRec (.of t) :=
      keep_congr fun t => not_congr (or_iff_right attr_given)
    rw [others] at represents1
    refine .quiet rfl ?_ represents1.serves
    rw [interp,interpDelete]
    dsimp only
    rw [given,ok_bind,ran]
    rfl
  | notDeleted => exact .quiet rfl rfl represents.serves
  | @loaded relname filename table fd rows user there named opened narrow read room =>
    obtain ⟨status,db1,shelf1,ran,represents1⟩ :=
      represents.loads user there (written relname (List.mem_cons_self ..)) narrow named fd setting.turns
      read room
    refine .quiet rfl ?_ represents1.serves
    rw [interp,opened,ran]
    rfl
  | @printed relname table there enough =>
    obtain ⟨recs,db1,ran,answer,represents1⟩ := represents.prints there (written relname (List.mem_cons_self ..))
      setting.turns enough
    refine ⟨recs,_,?_,answer,represents1.serves⟩
    rw [interpPrinting,utPrinting,ran]
    rfl
  | @notPrinted relname unknown =>
    obtain ⟨db1,asked,represents1⟩ := represents.relInfo (written relname (List.mem_cons_self ..)) ⟨[],0⟩
    have refused : Status.relNotFound ≠ .ok := Status.noConfusion
    refine ⟨[],_,?_,rfl,represents1.serves⟩
    rw [interpPrinting,utPrinting,UT_Print,if_neg (written relname (List.mem_cons_self ..)).1,asked,if_pos
      (schema_none.mpr unknown),ok_bind]
    dsimp only
    rw [if_pos refused]
    rfl
  | @helped relname =>
    obtain ⟨db1,ran,represents1⟩ := represents.helps (written relname (List.mem_singleton.mpr rfl)) setting.turns
    refine .quiet rfl ?_ represents1.serves
    rw [interp,Option.getD_some,ran]
    rfl
  | @helpedAll table there enough =>
    obtain ⟨recs,db1,ran,answer,represents1⟩ := represents.prints there (by decide) setting.turns enough
    refine ⟨recs,_,?_,answer,represents1.serves⟩
    rw [interpPrinting,utPrinting,ran]
    rfl
  | @badQuery relname attrlist qual refusal refused =>
    obtain ⟨db1,found,represents1⟩ := represents.resultRelation rfl (query_written written).1
    obtain ⟨outcome,found⟩ : ∃ outcome, Minirel.resultRelation db relname = .ok (outcome,db1) := ⟨_,found⟩
    refine ⟨[],_,?_,rfl,represents1.serves⟩
    rw [interpPrinting,interpQueryPrinting,found,ok_bind]
    cases outcome with
    | none => rfl
    | some result =>
      dsimp only
      rw [refused]
      rfl
  | taken there =>
    obtain ⟨db1,found,represents1⟩ := represents.resultRelation rfl (query_written written).1
    refine ⟨[],_,?_,rfl,represents1.serves⟩
    rw [if_pos ⟨rfl,mt schema_none.mp there⟩] at found
    rw [interpPrinting,interpQueryPrinting,found]
    rfl
  | @added result attrlist qual infos request table sources rows user there made matched asked apart room shows =>
    obtain ⟨into,attributes⟩ := query_written written
    exact represents.adds user there (into result rfl) attributes made matched asked apart room shows
  | @mismatched result attrlist qual infos request table there made other =>
    obtain ⟨into,attributes⟩ := query_written written
    obtain ⟨s',ran,serves⟩ := represents.refuses there (into result rfl) attributes made other
    exact ⟨[],s',ran,rfl,serves⟩
  | @produced relname result attrlist qual infos made request counter declared sources rows named new short
      arguments attributes shorts done
      declares asked apart room shows =>
    obtain ⟨into,named_attributes⟩ := query_written written
    exact represents.produces named into new short named_attributes arguments attributes shorts done declares
      asked apart room shows
  | @notProduced relname result attrlist qual infos made request status counter named new short arguments
      attributes refused =>
    obtain ⟨into,named_attributes⟩ := query_written written
    obtain ⟨s',ran,serves⟩ := represents.discards named into new short named_attributes arguments attributes refused
    exact ⟨[],s',ran,rfl,serves⟩

end Minirel
