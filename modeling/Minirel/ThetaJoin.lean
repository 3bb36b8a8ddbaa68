import Minirel.Join

namespace Minirel
open ByteMemory SlotDirectory Page Heap

-- The order of the numbers themselves, where matchRec looks at the sign of a difference.
def FloatValue.order : FloatValue → FloatValue → Option Ordering
  | .nan,_ => none
  | _,.nan => none
  | .finite x,.finite y => some (compare x y)
  | .infinite x,.infinite y => some (if x = y then .eq else if x then .lt else .gt)
  | .infinite x,.finite _ => some (if x then .lt else .gt)
  | .finite _,.infinite y => some (if y then .gt else .lt)

def Datatype.order (type : Datatype) (length : Nat) (x y : List UInt8) : Option Ordering :=
  match type with
  | .integer => some (compare (decode (bytesAt x length)) (decode (bytesAt y length)))
  | .float => (FloatValue.ofBits (unsigned (bytesAt x length))).order (.ofBits (unsigned (bytesAt y length)))
  | .string => some (compare (strncmp length x y) 0)

def theta (type : Datatype) (length : Nat) (op : Operator) (x y : List UInt8) :
    Bool := op.accepts (type.order length x y)

-- Both values are the same infinity, whose difference is no number.
def Clash (length : Nat) (x y : List UInt8) : Prop :=
  ∃ negative, FloatValue.ofBits (unsigned (bytesAt x length)) = .infinite negative ∧
    FloatValue.ofBits (unsigned (bytesAt y length)) = .infinite negative

-- The values of an integer attribute are near when their difference is an int.
def Near (length : Nat) (x y : List UInt8) : Prop :=
  -2 ^ 31 < decode (bytesAt x length) - decode (bytesAt y length) ∧
    decode (bytesAt x length) - decode (bytesAt y length) < 2 ^ 31

instance (length : Nat) (x y : List UInt8) : Decidable (Near length x y) := inferInstanceAs (Decidable (_ ∧ _))

theorem compare_sub_swap {x y : Int} (low : -2 ^ 31 < x - y) (high : x - y < 2 ^ 31) :
    compare (Int.bmod (y - x) (2 ^ 32)) 0 = (compare x y).swap := by
  have exact_diff : Int.bmod (y - x) (2 ^ 32) = y - x := Int.bmod_eq_of_le_mul_two (by omega) (by omega)
  rw [exact_diff,Int.compare_swap]
  rcases Int.lt_trichotomy x y with less | rfl | more
  · rw [Int.compare_eq_gt.mpr (by omega),Int.compare_eq_gt.mpr less]
  · rw [Int.sub_self,Int.compare_eq_eq.mpr rfl,Int.compare_eq_eq.mpr rfl]
  · rw [Int.compare_eq_lt.mpr (by omega),Int.compare_eq_lt.mpr more]

theorem strncmp_swap (n : Nat) (x y : List UInt8) : strncmp n y x = -strncmp n x y := by
  induction n generalizing x y with
  | zero => rfl
  | succ n ih =>
    unfold strncmp
    by_cases same : x.headD 0 = y.headD 0
    · rw [if_neg (not_not_intro same),if_neg (not_not_intro same.symm),same]
      by_cases stop : y.headD 0 = 0
      · rw [if_pos stop,if_pos stop,Int.neg_zero]
      · rw [if_neg stop,if_neg stop,ih]
    · rw [if_pos same,if_pos (Ne.symm same)]
      omega

theorem FloatValue.difference_swap {x y : FloatValue}
    (apart : ∀ negative, ¬ (x = .infinite negative ∧ y = .infinite negative)) :
    y.difference x = (x.order y).map Ordering.swap := by
  cases x with
  | nan => cases y <;> rfl
  | finite a =>
    cases y with
    | nan => rfl
    | finite c =>
      rw [difference,order,Option.map_some,Int.compare_swap]
    | infinite n => cases n <;> rfl
  | infinite m =>
    cases y with
    | nan => rfl
    | finite c => cases m <;> rfl
    | infinite n =>
      cases m <;> cases n
      · exact absurd ⟨rfl,rfl⟩ (apart false)
      · rfl
      · rfl
      · exact absurd ⟨rfl,rfl⟩ (apart true)

theorem Datatype.difference_swap {type : Datatype} {length : Nat} {x y : List UInt8}
    (near : type = .integer → Near length x y)
    (apart : type = .float → ¬ Clash length x y) : type.difference length y x =
    (type.order length x y).map Ordering.swap := by
  cases type with
  | string =>
    rw [difference,order,Option.map_some,strncmp_swap,Int.compare_swap]
    have negated : ∀ v : Int, compare (-v) 0 = compare 0 v := fun v => by
      rcases Int.lt_trichotomy v 0 with less | rfl | more
      · rw [Int.compare_eq_gt.mpr (by omega),Int.compare_eq_gt.mpr less]
      · rfl
      · rw [Int.compare_eq_lt.mpr (by omega),Int.compare_eq_lt.mpr more]
    rw [negated]
  | integer =>
    obtain ⟨low,high⟩ := near rfl
    rw [difference,order,Option.map_some,compare_sub_swap low high]
  | float =>
    rw [difference,order]
    exact FloatValue.difference_swap fun negative both => apart rfl ⟨negative,both⟩

theorem Operator.mirror_accepts (op : Operator) (o : Option Ordering) :
    op.mirror.accepts (o.map Ordering.swap) = op.accepts o := by
  rcases o with _ | o
  · cases op <;> rfl
  · cases op <;> cases o <;> rfl

-- Where infinities meet, the difference is neither below nor above zero nor zero.
theorem Clash.difference {length : Nat} {x y : List UInt8} (clash : Clash length x y) :
    Datatype.difference .float length y x = none ∧ Datatype.order .float length x y = some .eq := by
  obtain ⟨negative,left,right⟩ := clash
  constructor
  · rw [Datatype.difference,left,right,FloatValue.difference,if_pos rfl]
  · rw [Datatype.order,left,right,FloatValue.order,if_pos rfl]

section pairs

variable {α β γ : Type}

-- A test that accepts less selects fewer, unless it accepts the same.
theorem filter_fewer {p q : β → Bool} {l : List β} (less : ∀ b ∈ l, p b = true → q b = true) :
    (l.filter p).length ≤ (l.filter q).length ∧ ((l.filter p).length = (l.filter q).length → ∀ b ∈ l, p b = q b) := by
  induction l with
  | nil => exact ⟨Nat.le_refl _,fun _ b member => nomatch member⟩
  | cons b rest ih =>
    obtain ⟨le,same⟩ := ih fun b member => less b (List.mem_cons_of_mem _ member)
    have first := less b (List.mem_cons_self ..)
    cases left : p b <;> cases right : q b
    · rw [List.filter_cons_of_neg (by simp [left]),List.filter_cons_of_neg (by simp [right])]
      refine ⟨le,fun equal b' member => ?_⟩
      rcases List.mem_cons.mp member with rfl | later
      · rw [left,right]
      · exact same equal b' later
    · rw [List.filter_cons_of_neg (by simp [left]),List.filter_cons_of_pos right,List.length_cons]
      exact ⟨by omega,fun equal => by omega⟩
    · rw [left,right] at first
      exact absurd (first rfl) (by decide)
    · rw [List.filter_cons_of_pos left,List.filter_cons_of_pos right,List.length_cons,List.length_cons]
      refine ⟨Nat.succ_le_succ le,fun equal b' member => ?_⟩
      rcases List.mem_cons.mp member with rfl | later
      · rw [left,right]
      · exact same (by omega) b' later

def pairsOf (accepts : α → β → Bool) (output : α → β → γ) (ones : List α) (twos : List β) : List γ :=
  ones.flatMap fun a => (twos.filter (accepts a)).map (output a)

theorem pairsOf_congr {p q : α → β → Bool} {output : α → β → γ} {ones : List α} {twos : List β}
    (same : ∀ a ∈ ones, ∀ b ∈ twos, p a b = q a b) : pairsOf p output ones twos = pairsOf q output ones twos := by
  rw [pairsOf,pairsOf,List.flatMap_def,List.flatMap_def]
  refine congrArg List.flatten (List.map_congr_left fun a member => ?_)
  exact congrArg _ (List.filter_congr (same a member))

theorem pairsOf_fewer {p q : α → β → Bool} {output : α → β → γ} {ones : List α} {twos : List β}
    (less : ∀ a ∈ ones, ∀ b ∈ twos, p a b = true → q a b = true) :
    (pairsOf p output ones twos).length ≤ (pairsOf q output ones twos).length ∧
      ((pairsOf p output ones twos).length = (pairsOf q output ones twos).length → ∀ a ∈ ones, ∀ b ∈
        twos, p a b = q a b) := by
  induction ones with
  | nil => exact ⟨Nat.le_refl _,fun _ a member => nomatch member⟩
  | cons a rest ih =>
    obtain ⟨le,same⟩ := ih fun a member => less a (List.mem_cons_of_mem _ member)
    obtain ⟨le_here,same_here⟩ := filter_fewer (less a (List.mem_cons_self ..))
    unfold pairsOf at le same ⊢
    simp only [List.flatMap_cons,List.length_append,List.length_map]
    refine ⟨by omega,fun equal a' member => ?_⟩
    rcases List.mem_cons.mp member with rfl | later
    · exact same_here (by omega)
    · exact same (by omega) a' later

theorem pairsOf_map {α' β' : Type} (f : α' → α) (g : β' → β) {p : α → β → Bool} {output : α → β → γ}
    {ones : List α'} {twos : List β'} :
    pairsOf (fun a b => p (f a) (g b)) (fun a b => output (f a) (g b)) ones twos =
      pairsOf p output (ones.map f) (twos.map g) := by
  rw [pairsOf,pairsOf,List.flatMap_map]
  refine congrArg (fun h => List.flatMap h ones) (funext fun a => ?_)
  rw [List.filter_map,List.map_map]
  rfl

end pairs

variable {d1 d2 : AttrDesc} {type : Datatype}

-- The bytes from an attribute on.
def valueAt (d : AttrDesc) (bytes : List UInt8) : List UInt8 := bytes.drop d.attrOffset.toNat

-- One output for each pair of records that the operator relates, the outer record first.
def thetaJoin (outerName : Name) (attrs : List AttrDesc) (d1 d2 : AttrDesc) (type : Datatype) (op : Operator)
    (one two : List Entry) :
    List (List UInt8) :=
  pairsOf (fun e1 e2 => theta type d1.attrLen.toNat op (valueAt d1 e1.2) (valueAt d2 e2.2))
    (fun e1 e2 => gathered (sourceOf outerName e1.2 e2.2) attrs) one two

theorem thetaJoin_of_bytes (outerName : Name) (attrs : List AttrDesc) (d1 d2 : AttrDesc) (type : Datatype)
    (op : Operator) (one two : List Entry) :
    thetaJoin outerName attrs d1 d2 type op one two =
      pairsOf (fun x y => theta type d1.attrLen.toNat op (valueAt d1 x) (valueAt d2 y))
        (fun x y => gathered (sourceOf outerName x y) attrs)
        (one.map Prod.snd) (two.map Prod.snd) := by
  rw [← pairsOf_map Prod.snd Prod.snd]
  rfl

-- How the inner scan judges a pair.
def judged (d1 d2 : AttrDesc) (type : Datatype) (op : Operator) (one two : List UInt8) : Bool :=
  op.mirror.accepts (type.difference d2.attrLen.toNat (valueAt d2 two) (valueAt d1 one))

theorem accepts_judged (typed : Datatype.ofCode d2.attrType = some type) {two : List UInt8} (inside : Inside d2 two)
    (op : Operator)
    (one : List UInt8) : HeapFileScan.accepts (joinCondition d1 d2 op one) two = judged d1 d2 type op one two := by
  obtain ⟨low,positive,high⟩ := inside
  rw [joinCondition,typed,Option.map_some,HeapFileScan.accepts,Option.all_some,Condition.matchRec,Record.of]
  dsimp only
  rw [if_neg (by omega)]
  rfl

theorem joined_pairs (typed : Datatype.ofCode d2.attrType = some type) {outerName : Name} {attrs : List AttrDesc}
    {op : Operator}
    {one : List Entry} {two : Heap} (inside : ∀ e ∈ records two, Inside d2 e.2) :
    joined outerName attrs d1 d2 op one two =
      pairsOf (fun e1 e2 => judged d1 d2 type op e1.2 e2.2)
        (fun e1 e2 => gathered (sourceOf outerName e1.2 e2.2) attrs) one (records two) := by
  have spelled : joined outerName attrs d1 d2 op one two =
    pairsOf (fun e1 e2 => HeapFileScan.accepts (joinCondition d1 d2 op e1.2) e2.2)
      (fun e1 e2 => gathered (sourceOf outerName e1.2 e2.2) attrs) one (records two) := rfl
  rw [spelled]
  exact pairsOf_congr fun e1 _ e2 member => accepts_judged typed (inside e2 member) op e1.2

-- Some pair joins on the same infinity, and the operator is one that a difference of zero decides.
def Clashing (d1 d2 : AttrDesc) (type : Datatype) (op : Operator) (one two : List Entry) : Prop :=
  type = .float ∧ op ≠ .lt ∧ op ≠ .gt ∧ ∃ e1 ∈ one, ∃ e2 ∈ two, Clash d1.attrLen.toNat (valueAt d1 e1.2)
    (valueAt d2 e2.2)

theorem judged_theta {op : Operator} {one two : List UInt8} (lengths : d1.attrLen = d2.attrLen)
    (near : type = .integer → Near d1.attrLen.toNat (valueAt d1 one) (valueAt d2 two))
    (apart : type = .float → ¬ Clash d1.attrLen.toNat (valueAt d1 one) (valueAt d2 two)) :
    judged d1 d2 type op one two = theta type d1.attrLen.toNat op (valueAt d1 one) (valueAt d2 two) := by
  rw [judged,← lengths,Datatype.difference_swap near apart,Operator.mirror_accepts,theta]

theorem judged_clash {op : Operator} {one two : List UInt8} (lengths : d1.attrLen = d2.attrLen)
    (clash : Clash d1.attrLen.toNat (valueAt d1 one) (valueAt d2 two)) :
    judged d1 d2 .float op one two = op.accepts none ∧
      theta .float d1.attrLen.toNat op (valueAt d1 one) (valueAt d2 two) = op.accepts (some .eq) := by
  rw [judged,← lengths,clash.difference.1,theta,clash.difference.2]
  exact ⟨by cases op <;> rfl,rfl⟩

theorem pairs_theta_iff {output : Entry → Entry → List UInt8} {op : Operator} {one two : List Entry}
    (lengths : d1.attrLen = d2.attrLen)
    (near : type = .integer → ∀ e1 ∈ one, ∀ e2 ∈ two, Near d1.attrLen.toNat (valueAt d1 e1.2) (valueAt d2 e2.2)) :
    pairsOf (fun e1 e2 => judged d1 d2 type op e1.2 e2.2) output one two =
        pairsOf (fun e1 e2 => theta type d1.attrLen.toNat op (valueAt d1 e1.2) (valueAt d2 e2.2)) output one two ↔
      ¬ Clashing d1 d2 type op one two := by
  have agree : ∀ e1 ∈ one, ∀ e2 ∈ two, (type = .float → ¬ Clash d1.attrLen.toNat (valueAt d1 e1.2) (valueAt d2 e2.2)) →
      judged d1 d2 type op e1.2 e2.2 = theta type d1.attrLen.toNat op (valueAt d1 e1.2) (valueAt d2 e2.2) :=
    fun e1 member1 e2 member2 apart => judged_theta lengths (fun integer => near integer e1 member1 e2 member2) apart
  constructor
  · rintro same ⟨rfl,not_lt,not_gt,e1,member1,e2,member2,clash⟩
    -- Two equal infinities are told apart in one way for every such operator, so one list is shorter.
    have differ : judged d1 d2 .float op e1.2 e2.2 ≠ theta .float d1.attrLen.toNat op (valueAt d1 e1.2)
        (valueAt d2 e2.2) := by
      rw [(judged_clash lengths clash).1,(judged_clash lengths clash).2]
      cases op <;> first | exact absurd rfl not_lt | exact absurd rfl not_gt | decide
    have length := congrArg List.length same
    by_cases is_ne : op = .ne
    · subst is_ne
      have less : ∀ a ∈ one, ∀ b ∈ two, theta .float d1.attrLen.toNat .ne (valueAt d1 a.2) (valueAt d2 b.2) = true →
          judged d1 d2 .float .ne a.2 b.2 = true := by
        intro a in1 b in2 accepted
        by_cases both : Clash d1.attrLen.toNat (valueAt d1 a.2) (valueAt d2 b.2)
        · rw [(judged_clash lengths both).1]
          rfl
        · rw [agree a in1 b in2 fun _ => both]
          exact accepted
      exact differ ((pairsOf_fewer less).2 length.symm e1 member1 e2 member2).symm
    · have less : ∀ a ∈ one, ∀ b ∈ two, judged d1 d2 .float op a.2 b.2 = true →
          theta .float d1.attrLen.toNat op (valueAt d1 a.2) (valueAt d2 b.2) = true := by
        intro a in1 b in2 accepted
        by_cases both : Clash d1.attrLen.toNat (valueAt d1 a.2) (valueAt d2 b.2)
        · rw [(judged_clash lengths both).1] at accepted
          rw [(judged_clash lengths both).2]
          cases op <;> first | rfl | exact absurd rfl is_ne | exact absurd accepted (by decide)
        · rw [← agree a in1 b in2 fun _ => both]
          exact accepted
      exact differ ((pairsOf_fewer less).2 length e1 member1 e2 member2)
  · intro calm
    refine pairsOf_congr fun e1 member1 e2 member2 => ?_
    by_cases strict : type = .float ∧ (op = .lt ∨ op = .gt)
    · obtain ⟨rfl,which⟩ := strict
      by_cases both : Clash d1.attrLen.toNat (valueAt d1 e1.2) (valueAt d2 e2.2)
      · rw [(judged_clash lengths both).1,(judged_clash lengths both).2]
        rcases which with rfl | rfl <;> rfl
      · exact agree e1 member1 e2 member2 fun _ => both
    · refine agree e1 member1 e2 member2 fun float both =>
        calm ⟨float,fun less => strict ⟨float,.inl less⟩,fun more => strict ⟨float,.inr more⟩,
        e1,member1,e2,member2,both⟩

-- The result of a query has gained these records and nothing else has changed.
def ResultGains (shelf : Shelf) (result : Name) (target : HeldFile) (expected : List (List UInt8)) (db' : Db) : Prop :=
  ∃ target', db'.Stands (Function.update shelf result (some target')) ∧ target'.books = target.books ∧
    Gains target.heap target'.heap expected

theorem Answered.gains_iff {shelf : Shelf} {result : Name} {target : HeldFile} {wanted expected : List (List UInt8)}
    {db' : Db}
    (answered : Answered shelf result target wanted .ok db') : ResultGains shelf result target expected db' ↔
    wanted = expected := by
  obtain ⟨target1,new,stands1,books1,gains1,_,full⟩ := answered
  rw [full rfl] at gains1
  constructor
  · rintro ⟨target2,stands2,books2,gains2⟩
    have same := stands1.unique stands2 (Function.update_self ..) (Function.update_self ..) (books2.trans books1.symm)
    rw [same] at gains2
    exact gains1.gained.symm.trans gains2.gained
  · rintro rfl
    exact ⟨target1,stands1,books1,gains1⟩

section runs

variable {db db' : Db} {shelf : Shelf} {cat file1 file2 target : HeldFile} {one two result : Name}
  {infos : List AttrInfo}
  {attrs : List AttrDesc} {attr1 attr2 : AttrInfo}

theorem nl_join_gains (query : JoinLaid db shelf cat file1 file2 target one two result infos attrs attr1 attr2 d1 d2)
    (apart1 : one ≠ result) (apart2 : two ≠ result) {op : Operator} {turns : Nat}
    (ran : QU_NL_Join turns db result infos attr1 op attr2 = .ok (.ok,db')) (expected : List (List UInt8)) :
    ResultGains shelf result target expected db' ↔
      joined one attrs d1 d2 op (records file1.heap) file2.heap = expected := by
  have goes := QU_NL_Join_spec query apart1 apart2 op turns
  rw [ran] at goes
  rcases goes with ⟨_,out⟩ | ⟨_,_,out⟩ | ⟨status,db1,done,answered⟩
  · cases out
  · cases out
  · obtain ⟨rfl,rfl⟩ := Prod.mk.inj (Except.ok.inj done)
    exact answered.gains_iff

theorem nl_join_gains_iff (type : Datatype)
    (query : JoinLaid db shelf cat file1 file2 target one two result infos attrs attr1 attr2 d1 d2)
    (apart1 : one ≠ result) (apart2 : two ≠ result)
    (typed : Datatype.ofCode d2.attrType = some type) {op : Operator} {turns : Nat}
    (ran : QU_NL_Join turns db result infos attr1 op attr2 = .ok (.ok,db')) (expected : List (List UInt8)) :
    ResultGains shelf result target expected db' ↔
      pairsOf (fun e1 e2 => judged d1 d2 type op e1.2 e2.2) (fun e1 e2 => gathered (sourceOf one e1.2 e2.2) attrs)
        (records file1.heap) (records file2.heap) = expected := by
  have inside2 : ∀ e ∈ records file2.heap, Inside d2 e.2 :=
    fun e member => query.laid2 e member d2 (attrOf_mem query.found2.attr).1
  rw [nl_join_gains query apart1 apart2 ran,joined_pairs typed inside2]

end runs

-- A join that returns OK has made the theta join, outer major, unless matchRec was to compare equal
-- infinities by their difference.
theorem nl_join_theta_iff (db : Db) (shelf : Shelf) (cat file1 file2 target : HeldFile) (one two result : Name)
    (infos : List AttrInfo)
    (attrs : List AttrDesc) (attr1 attr2 : AttrInfo) (d1 d2 : AttrDesc)
    (query : JoinQuery db shelf cat file1 file2 target one two result infos attrs attr1 attr2 d1 d2)
    (apart1 : one ≠ result)
    (apart2 : two ≠ result) (type : Datatype)
    (typed : Datatype.ofCode d1.attrType = some type) (types : d1.attrType = d2.attrType)
    (near : type = .integer → ∀ e1 ∈ records file1.heap, ∀ e2 ∈ records file2.heap,
      Near d1.attrLen.toNat (valueAt d1 e1.2) (valueAt d2 e2.2))
    (op : Operator) (turns : Nat) (db' : Db) (ran : QU_NL_Join turns db result infos attr1 op attr2 = .ok (.ok,db')) :
    ResultGains shelf result target (thetaJoin one attrs d1 d2 type op (records file1.heap) (records file2.heap)) db' ↔
      ¬ Clashing d1 d2 type op (records file1.heap) (records file2.heap) := by
  rw [nl_join_gains_iff type query.toJoinLaid apart1 apart2 (by rw [← types]; exact typed) ran]
  exact pairs_theta_iff query.lengths near

theorem nl_join_theta_iff_sample : ∃ shelf t db', shelf [84] = some t ∧
    QU_NL_Join 3 sampleDb [84] [⟨[82],[98],-1,-1,none⟩,⟨[83],[97],-1,-1,none⟩] ⟨[82],[97],-1,-1,none⟩ .lt
      ⟨[83],[97],-1,-1,none⟩ = .ok (.ok,db') ∧
    ResultGains shelf [84] t [[2,0,0,0,3,0,0,0]] db' := by
  obtain ⟨shelf,cat,r,s,t,at_t,query,recs_r,recs_s⟩ := sampleDb_query
  obtain ⟨db',succeeded⟩ := sampleDb_joins
  have near : ∀ x ∈ (records r.heap).map Prod.snd, ∀ y ∈ (records s.heap).map Prod.snd,
      Near 4 (valueAt ⟨[82],[97],0,1,4⟩ x) (valueAt ⟨[83],[97],0,1,4⟩ y) := by
    rw [recs_r,recs_s]
    decide
  have joined := (nl_join_theta_iff _ _ _ _ _ _ _ _ _ _ _ _ _ _ _ query (by decide) (by decide) .integer rfl rfl
    (fun _ e1 member1 e2 member2 => near e1.2 (List.mem_map_of_mem member1) e2.2 (List.mem_map_of_mem member2))
    .lt 3 db' succeeded).mpr
    (fun clashing => by cases clashing.1)
  rw [thetaJoin_of_bytes,recs_r,recs_s] at joined
  exact ⟨shelf,t,db',at_t,succeeded,joined⟩

-- Relations R and S with a float attribute x, which is infinite in their one record; T is empty.
def infinityTables : List (Name × List (List UInt8)) :=
  [(attrCatName,[AttrDesc.bytes ⟨[82],[120],0,2,4⟩,AttrDesc.bytes ⟨[83],[120],0,2,4⟩]),
    ([82],[[0,0,128,127]]),([83],[[0,0,128,127]]),([84],[])]

def infinityDb : Db := Db.holding (fun _ _ => zero 1024) ⟨HeapFile.fresh 0 0,none,0,nullRid⟩ infinityTables

theorem infinityTables_load : Db.Loads (fun _ _ => zero 1024) infinityTables := by decide +kernel

-- The infinities are equal, and the join does not pair them.
theorem infinities_unjoined : ∃ shelf cat r s t db', shelf [84] = some t ∧
    JoinQuery infinityDb shelf cat r s t [82] [83] [84] [⟨[82],[120],-1,-1,none⟩] [⟨[82],[120],0,2,4⟩]
      ⟨[82],[120],-1,-1,none⟩
      ⟨[83],[120],-1,-1,none⟩ ⟨[82],[120],0,2,4⟩ ⟨[83],[120],0,2,4⟩ ∧
    QU_NL_Join 3 infinityDb [84] [⟨[82],[120],-1,-1,none⟩] ⟨[82],[120],-1,-1,none⟩ .eq ⟨[83],[120],-1,-1,none⟩ =
      .ok (.ok,db') ∧
    thetaJoin [82] [⟨[82],[120],0,2,4⟩] ⟨[82],[120],0,2,4⟩ ⟨[83],[120],0,2,4⟩ .float .eq (records r.heap)
      (records s.heap) = [[0,0,128,127]] ∧
    ¬ ResultGains shelf [84] t [[0,0,128,127]] db' := by
  obtain ⟨shelf,stands,listed⟩ := Db.holding_stands infinityTables_load
  obtain ⟨cat,catalog,rows⟩ := listed attrCatName _ rfl
  obtain ⟨r,at_r,recs_r⟩ := listed [82] _ rfl
  obtain ⟨s,at_s,recs_s⟩ := listed [83] _ rfl
  obtain ⟨t,at_t,_⟩ := listed [84] _ rfl
  have attrs_r : attributes cat.heap [82] = [⟨[82],[120],0,2,4⟩] := by rw [attributes_of_bytes rows]; decide
  have attrs_s : attributes cat.heap [83] = [⟨[83],[120],0,2,4⟩] := by rw [attributes_of_bytes rows]; decide
  have in_r : Found cat.heap [82] ⟨[82],[120],-1,-1,none⟩ ⟨[82],[120],0,2,4⟩ :=
    ⟨rfl,by decide,by rw [attrOf,attrs_r]; decide⟩
  have in_s : Found cat.heap [83] ⟨[83],[120],-1,-1,none⟩ ⟨[83],[120],0,2,4⟩ :=
    ⟨rfl,by decide,by rw [attrOf,attrs_s]; decide⟩
  have query : JoinQuery infinityDb shelf cat r s t [82] [83] [84] [⟨[82],[120],-1,-1,none⟩] [⟨[82],[120],0,2,4⟩]
    ⟨[82],[120],-1,-1,none⟩
      ⟨[83],[120],-1,-1,none⟩ ⟨[82],[120],0,2,4⟩ ⟨[83],[120],0,2,4⟩ :=
        ⟨⟨stands,catalog,rows_of_bytes rows (by decide),by decide,by decide,
    at_r,at_s,at_t,laid_of_bytes attrs_r recs_r (by decide),laid_of_bytes attrs_s recs_s (by decide),by decide,
    .cons (.inl in_r) .nil,in_r,in_s⟩,rfl⟩
  obtain ⟨db',succeeded⟩ := Db.exists_ok (by decide +kernel : (QU_NL_Join 3 infinityDb [84] [⟨[82],[120],-1,-1,none⟩]
    ⟨[82],[120],-1,-1,none⟩ .eq ⟨[83],[120],-1,-1,none⟩).toOption.map Prod.fst = some .ok)
  refine ⟨shelf,cat,r,s,t,db',at_t,query,succeeded,?_,?_⟩
  · rw [thetaJoin_of_bytes,recs_r,recs_s]
    decide
  · have few : pairsOf (fun x y => judged ⟨[82],[120],0,2,4⟩ ⟨[83],[120],0,2,4⟩ .float .eq x y)
        (fun x y => gathered (sourceOf [82] x y) [⟨[82],[120],0,2,4⟩]) ((records r.heap).map Prod.snd)
        ((records s.heap).map Prod.snd) = [] := by
      rw [recs_r,recs_s]
      decide
    rw [← pairsOf_map Prod.snd Prod.snd] at few
    rw [nl_join_gains_iff .float query.toJoinLaid (by decide) (by decide) rfl succeeded,few]
    decide

end Minirel
