import Minirel.Readers

namespace Readers

variable {τ α β : Type}

-- A reader that counts what it makes on its way, whatever comes of the tokens in the end.
def Maker (τ α : Type) : Type := List τ → Outcome τ α × Nat

namespace Maker

def bind (p : Maker τ α) (q : α → Maker τ β) : Maker τ β := fun w =>
  match p w with
  | (.ok a rest,made) => ((q a rest).1,made + (q a rest).2)
  | (.more,made) => (.more,made)
  | (.error,made) => (.error,made)

instance : Monad (Maker τ) where
  pure a := fun w => (.ok a w,0)
  bind := bind

def read (p : Reader τ α) : Maker τ α := fun w => (p w,0)

def make (n : Nat) : Maker τ Unit := fun w => (.ok () w,n)

def next (f : τ → Maker τ α) : Maker τ α
  | [] => (.more,0)
  | t::w => f t w

def branch (starts : τ → Bool) (p q : Maker τ α) : Maker τ α
  | [] => (.more,0)
  | t::w => if starts t then p (t::w) else q (t::w)

-- One thing is made of what has been read.
def one (p : Maker τ α) : Maker τ α := do
  let a ← p
  make 1
  return a

variable {p p' : Maker τ α} {q : α → Maker τ β} {w rest : List τ} {a : α} {b : β} {n : Nat}

theorem bind_ok_iff : (p >>= q) w = (.ok b rest,n) ↔ ∃ a middle k l, p w = (.ok a middle,k) ∧
    q a middle = (.ok b rest,l) ∧ n = k + l := by
  change bind p q w = _ ↔ _
  unfold bind
  constructor
  · intro ran
    cases first : p w with
    | mk o k =>
      cases o with
      | ok a middle =>
        rw [first] at ran
        obtain ⟨outcome,count⟩ := Prod.mk.inj ran
        exact ⟨a,middle,k,_,rfl,Prod.ext outcome rfl,count.symm⟩
      | more =>
        rw [first] at ran
        cases ran
      | error =>
        rw [first] at ran
        cases ran
  · rintro ⟨a,middle,k,l,first,second,rfl⟩
    rw [first]
    dsimp only
    rw [second]

theorem pure_ok_iff {a' : α} : (pure a : Maker τ α) w = (.ok a' rest,n) ↔ a' = a ∧ rest = w ∧ n = 0 := by
  constructor
  · intro ran
    cases ran
    exact ⟨rfl,rfl,rfl⟩
  · rintro ⟨rfl,rfl,rfl⟩
    rfl

theorem read_ok_iff {p : Reader τ α} : read p w = (.ok a rest,n) ↔ p w = .ok a rest ∧ n = 0 := by
  rw [read,Prod.mk.injEq,eq_comm (a:=0)]

theorem make_ok_iff {k : Nat} {u : Unit} : (make k : Maker τ Unit) w = (.ok u rest,n) ↔ rest = w ∧ n = k := by
  constructor
  · intro ran
    cases ran
    exact ⟨rfl,rfl⟩
  · rintro ⟨rfl,rfl⟩
    rfl

-- What it reads.
def forget (p : Maker τ α) : Reader τ α := fun w => (p w).1

@[simp] theorem forget_bind (p : Maker τ α) (q : α → Maker τ β) :
    forget (p >>= q) = forget p >>= fun a => forget (q a) := by
  funext w
  change (bind p q w).1 = (p w).1.bind _
  unfold bind
  cases p w with
  | mk o k => cases o <;> rfl

@[simp] theorem forget_pure (a : α) : forget (pure a : Maker τ α) = pure a := rfl

@[simp] theorem forget_read (p : Reader τ α) : forget (read p) = p := rfl

@[simp] theorem forget_make (n : Nat) : forget (make n : Maker τ Unit) = pure () := rfl

@[simp] theorem forget_next (f : τ → Maker τ α) : forget (next f) = Readers.next fun t => forget (f t) := by
  funext w
  cases w <;> rfl

@[simp] theorem forget_branch (starts : τ → Bool) (p q : Maker τ α) :
    forget (branch starts p q) = Readers.branch starts (forget p) (forget q) := by
  funext w
  cases w with
  | nil => rfl
  | cons t w =>
    change (if starts t then p (t::w) else q (t::w)).1 = if starts t then (p (t::w)).1 else (q (t::w)).1
    split <;> rfl

@[simp] theorem reader_pure_bind (a : α) (q : α → Reader τ β) : (pure a >>= q) = q a := rfl

@[simp] theorem reader_bind_pure (p : Reader τ α) : (p >>= fun a => pure a) = p := by
  funext w
  change (p w).bind _ = p w
  cases p w <;> rfl

@[simp] theorem forget_one (p : Maker τ α) : forget (one p) = forget p := by
  rw [one,forget_bind]
  exact reader_bind_pure (forget p)

-- More tokens change nothing of what has been said and made, and lose nothing of what was made.
structure Steady (p : Maker τ α) : Prop where
  ok_stays : ∀ {w a rest n} more, p w = (.ok a rest,n) → p (w ++ more) = (.ok a (rest ++ more),n)
  error_stays : ∀ {w n} more, p w = (.error,n) → p (w ++ more) = (.error,n)
  more_grows : ∀ {w n} more, p w = (.more,n) → n ≤ (p (w ++ more)).2

theorem steady_pure (a : α) : Steady (pure a : Maker τ α) where
  ok_stays more ran := by
    obtain ⟨rfl,rfl,rfl⟩ := pure_ok_iff.mp ran
    rfl
  error_stays more ran := nomatch ran
  more_grows more ran := nomatch ran

theorem steady_make (k : Nat) : Steady (make k : Maker τ Unit) where
  ok_stays more ran := by
    obtain ⟨rfl,rfl⟩ := make_ok_iff.mp ran
    rfl
  error_stays more ran := nomatch ran
  more_grows more ran := nomatch ran

theorem steady_read {p : Reader τ α} {P : List τ → α → Prop} {F : List τ → Prop} (reads : Readers.Reads p P F) :
    Steady (read p) where
  ok_stays {w a rest n} more ran := by
    obtain ⟨found,rfl⟩ := read_ok_iff.mp ran
    rw [read,(reads.upTo _).ok_stays w a rest more (Nat.le_refl _) found]
  error_stays {w n} more ran := by
    obtain ⟨failed,rfl⟩ := Prod.mk.inj ran
    rw [read,(reads.upTo _).error_stays w more (Nat.le_refl _) failed]
  more_grows more ran := by
    obtain ⟨_,rfl⟩ := Prod.mk.inj ran
    exact Nat.zero_le _

theorem steady_terminal (f : τ → Option α) : Steady (read (terminal f)) where
  ok_stays {w a rest n} more ran := by
    obtain ⟨found,rfl⟩ := read_ok_iff.mp ran
    cases w with
    | nil => cases found
    | cons t w =>
      change (f t).elim fail pure w = _ at found
      change ((f t).elim fail pure (w ++ more),0) = _
      cases known : f t with
      | none =>
        rw [known] at found
        cases found
      | some a =>
        rw [known] at found
        cases found
        rfl
  error_stays {w n} more ran := by
    obtain ⟨failed,rfl⟩ := Prod.mk.inj ran
    cases w with
    | nil => cases failed
    | cons t w =>
      change (f t).elim fail pure w = _ at failed
      change ((f t).elim fail pure (w ++ more),0) = _
      cases known : f t with
      | none => rfl
      | some a =>
        rw [known] at failed
        cases failed
  more_grows more ran := by
    obtain ⟨_,rfl⟩ := Prod.mk.inj ran
    exact Nat.zero_le _

theorem Steady.bind (first : Steady p) (second : ∀ a, Steady (q a)) : Steady (p >>= q) where
  ok_stays more ran := by
    obtain ⟨a,middle,k,l,read,behind,rfl⟩ := bind_ok_iff.mp ran
    exact bind_ok_iff.mpr ⟨a,_,k,l,first.ok_stays more read,(second a).ok_stays more behind,rfl⟩
  error_stays {w n} more ran := by
    change Maker.bind p q w = _ at ran
    change Maker.bind p q (w ++ more) = _
    unfold Maker.bind at ran ⊢
    cases outcome : p w with
    | mk o k =>
      rw [outcome] at ran
      cases o with
      | ok a middle =>
        obtain ⟨failed,rfl⟩ := Prod.mk.inj ran
        have behind := (second a).error_stays (w:=middle) more (Prod.ext failed rfl)
        rw [first.ok_stays more outcome]
        dsimp only
        rw [behind]
      | more => cases ran
      | error =>
        cases ran
        rw [first.error_stays more outcome]
  more_grows {w n} more ran := by
    change Maker.bind p q w = _ at ran
    change _ ≤ (Maker.bind p q (w ++ more)).2
    unfold Maker.bind at ran ⊢
    cases outcome : p w with
    | mk o k =>
      rw [outcome] at ran
      cases o with
      | ok a middle =>
        obtain ⟨asks,rfl⟩ := Prod.mk.inj ran
        have behind := (second a).more_grows (w:=middle) more (Prod.ext asks rfl)
        rw [first.ok_stays more outcome]
        exact Nat.add_le_add_left behind k
      | more =>
        cases ran
        have grown := first.more_grows more outcome
        cases later : p (w ++ more) with
        | mk o' k' =>
          rw [later] at grown
          cases o' with
          | ok a middle => exact Nat.le_trans grown (Nat.le_add_right _ _)
          | more => exact grown
          | error => exact grown
      | error => cases ran

theorem Steady.one (steady : Steady p) : Steady (one p) := steady.bind fun a => (steady_make 1).bind fun _ =>
    steady_pure a

theorem Steady.next {f : τ → Maker τ α} (each : ∀ t, Steady (f t)) : Steady (next f) where
  ok_stays {w a rest n} more ran := by
    cases w with
    | nil => cases ran
    | cons t w => exact (each t).ok_stays more ran
  error_stays {w n} more ran := by
    cases w with
    | nil => cases ran
    | cons t w => exact (each t).error_stays more ran
  more_grows {w n} more ran := by
    cases w with
    | nil =>
      cases ran
      exact Nat.zero_le _
    | cons t w => exact (each t).more_grows more ran

theorem Steady.branch (starts : τ → Bool) (first : Steady p) (second : Steady p') : Steady (branch starts p p') := by
  -- The first token decides, and it stays.
  have decided : ∀ t, (∀ w, Maker.branch starts p p' (t::w) = p (t::w)) ∨
      ∀ w, Maker.branch starts p p' (t::w) = p' (t::w) := by
    intro t
    by_cases here : starts t = true
    · exact .inl fun w => if_pos here
    · exact .inr fun w => if_neg here
  refine ⟨fun {w a rest n} more ran => ?_,fun {w n} more ran => ?_,fun {w n} more ran => ?_⟩
  · cases w with
    | nil => cases ran
    | cons t w =>
      rcases decided t with here | here
      · exact (here (w ++ more)).trans (first.ok_stays more ((here w).symm.trans ran))
      · exact (here (w ++ more)).trans (second.ok_stays more ((here w).symm.trans ran))
  · cases w with
    | nil => cases ran
    | cons t w =>
      rcases decided t with here | here
      · exact (here (w ++ more)).trans (first.error_stays more ((here w).symm.trans ran))
      · exact (here (w ++ more)).trans (second.error_stays more ((here w).symm.trans ran))
  · cases w with
    | nil =>
      cases ran
      exact Nat.zero_le _
    | cons t w =>
      rcases decided t with here | here
      · rw [List.cons_append,here]
        exact first.more_grows more ((here w).symm.trans ran)
      · rw [List.cons_append,here]
        exact second.more_grows more ((here w).symm.trans ran)

theorem bind_congr_of {q' : α → Maker τ β} (same : ∀ a rest n, p w = (.ok a rest,n) → q a rest = q' a rest) :
    (p >>= q) w = (p >>= q') w := by
  change bind p q w = bind p q' w
  unfold bind
  cases outcome : p w with
  | mk o k =>
    cases o with
    | ok a rest =>
      dsimp only
      rw [same a rest k outcome]
    | more => rfl
    | error => rfl

theorem branch_step (starts : τ → Bool) (p p' : Maker τ α) (t : τ) (w : List τ) :
    branch starts p p' (t::w) = if starts t = true then p (t::w) else p' (t::w) := rfl

section items

variable [DecidableEq τ]

-- Each item of a list makes what it makes, and then its place in the list, the last place first.
def single (comma : τ) (item : Maker τ α) (last : α → β) (cons : α → β → β) (rest : Maker τ β) : Maker τ β := do
  let a ← item
  branch (· = comma) (do read (expect comma); let b ← rest; make 1; return cons a b) (do make 1; return last a)

def bracketed (l r : τ) (rest : Maker τ β) : Maker τ β := do
  read (expect l)
  let b ← rest
  read (expect r)
  return b

def itemsUpTo (brackets : Option (τ × τ)) (comma : τ) (item : Maker τ α) (last : α → β) (cons : α → β → β) :
    Nat → Maker τ β
  | 0 => fun _ => (.more,0)
  | n+1 =>
    let rest := itemsUpTo brackets comma item last cons n
    match brackets with
    | none => single comma item last cons rest
    | some (l,r) => branch (· = l) (bracketed l r rest) (single comma item last cons rest)

def items (brackets : Option (τ × τ)) (comma : τ) (item : Maker τ α) (last : α → β) (cons : α → β → β) : Maker τ β :=
  fun w => itemsUpTo brackets comma item last cons w.length w

variable {brackets : Option (τ × τ)} {comma : τ} {item : Maker τ α} {last : α → β} {cons : α → β → β}

theorem itemsUpTo_bracketed (l r : τ) (n : Nat) : itemsUpTo (some (l,r)) comma item last cons (n + 1) =
    branch (· = l) (bracketed l r (itemsUpTo (some (l,r)) comma item last cons n))
      (single comma item last cons (itemsUpTo (some (l,r)) comma item last cons n)) := rfl

theorem forget_single (rest : Maker τ β) :
    forget (single comma item last cons rest) = Readers.single comma (forget item) last cons (forget rest) := by
  unfold single Readers.single
  simp only [forget_bind,forget_branch,forget_read,forget_make,forget_pure,reader_pure_bind]

theorem forget_itemsUpTo (n : Nat) :
    forget (itemsUpTo brackets comma item last cons n) = Readers.itemsUpTo brackets comma
      (forget item) last cons n := by
  induction n with
  | zero => rfl
  | succ n ih =>
    cases brackets with
    | none => exact (forget_single _).trans (by rw [ih]; rfl)
    | some both =>
      obtain ⟨l,r⟩ := both
      unfold itemsUpTo Readers.itemsUpTo bracketed Readers.bracketed
      simp only [forget_bind,forget_branch,forget_read,forget_pure,forget_single,ih]

@[simp] theorem forget_items :
    forget (items brackets comma item last cons) = Readers.items brackets comma (forget item) last cons := by
  funext w
  exact congrFun (forget_itemsUpTo w.length) w

-- What an item must be like for the number of turns not to matter.
structure Taking (item : Maker τ α) : Prop where
  nothing : item [] = (.more,0)
  shortens : ∀ {w a rest n}, item w = (.ok a rest,n) → rest.length ≤ w.length

theorem expect_shortens {c : τ} {w rest : List τ} {u : Unit} {n : Nat} (ran : read (expect c) w = (.ok u rest,n)) :
    ∃ t, w = t::rest := by
  obtain ⟨ran,_⟩ := read_ok_iff.mp ran
  cases w with
  | nil => cases ran
  | cons t w =>
    change (if t = c then some () else none : Option Unit).elim fail pure w = _ at ran
    split at ran
    · cases ran
      exact ⟨t,rfl⟩
    · cases ran

theorem itemsUpTo_nothing (taking : Taking item) (n : Nat) :
    itemsUpTo brackets comma item last cons n [] = (.more,0) := by
  have plain : ∀ rest, single comma item last cons rest [] = (.more,0) := by
    intro rest
    change bind item _ [] = _
    rw [bind,taking.nothing]
  cases n with
  | zero => rfl
  | succ n =>
    cases brackets with
    | none => exact plain _
    | some both => rfl

theorem itemsUpTo_agree (taking : Taking item) {m : Nat} {w : List τ} (short : w.length ≤ n) (less : n ≤ m) :
    itemsUpTo brackets comma item last cons n w = itemsUpTo brackets comma item last cons m w := by
  induction n generalizing m w with
  | zero =>
    obtain rfl := List.length_eq_zero_iff.mp (Nat.le_zero.mp short)
    rw [itemsUpTo_nothing taking,itemsUpTo_nothing taking]
  | succ n ih =>
    obtain ⟨m,rfl⟩ := Nat.exists_eq_succ_of_ne_zero (Nat.ne_zero_of_lt less)
    have later : ∀ {t : τ} {v : List τ}, (t::v).length ≤ n + 1 →
        itemsUpTo brackets comma item last cons n v = itemsUpTo brackets comma item last cons m v :=
      fun short => ih (Nat.le_of_succ_le_succ short) (Nat.le_of_succ_le_succ less)
    have plain : ∀ {v : List τ}, v.length ≤ n + 1 →
      single comma item last cons (itemsUpTo brackets comma item last cons n) v =
        single comma item last cons (itemsUpTo brackets comma item last cons m) v := by
      intro v short
      refine bind_congr_of fun a rest k took => ?_
      have fewer := taking.shortens took
      cases rest with
      | nil => rfl
      | cons t rest =>
        rw [branch_step,branch_step]
        by_cases here : decide (t = comma) = true
        · rw [if_pos here,if_pos here]
          refine bind_congr_of fun _ behind _ took => ?_
          obtain ⟨t',same⟩ := expect_shortens took
          obtain ⟨rfl,rfl⟩ := List.cons.inj same
          change bind _ _ rest = bind _ _ rest
          unfold bind
          rw [later (Nat.le_trans fewer short)]
        · rw [if_neg here,if_neg here]
    cases brackets with
    | none => exact plain short
    | some both =>
      obtain ⟨l,r⟩ := both
      cases w with
      | nil => rfl
      | cons t w =>
        rw [Nat.succ_eq_add_one,itemsUpTo_bracketed,itemsUpTo_bracketed,branch_step,branch_step]
        by_cases here : decide (t = l) = true
        · rw [if_pos here,if_pos here]
          refine bind_congr_of fun _ behind _ took => ?_
          obtain ⟨t',same⟩ := expect_shortens took
          obtain ⟨rfl,rfl⟩ := List.cons.inj same
          change bind _ _ w = bind _ _ w
          unfold bind
          rw [later short]
        · rw [if_neg here,if_neg here]
          exact plain short

theorem steady_itemsUpTo (steady : Steady item) (n : Nat) : Steady (itemsUpTo brackets comma item last cons n) := by
  induction n with
  | zero =>
    refine ⟨fun _ ran => (nomatch ran),fun _ ran => (nomatch ran),fun more ran => ?_⟩
    cases ran
    exact Nat.zero_le _
  | succ n ih =>
    have plain : Steady (single comma item last cons (itemsUpTo brackets comma item last cons n)) :=
      steady.bind fun a => .branch _ ((steady_terminal _).bind fun _ => ih.bind fun b => (steady_make 1).bind fun _ =>
        steady_pure _)
        ((steady_make 1).bind fun _ => steady_pure _)
    cases brackets with
    | none => exact plain
    | some both =>
      exact .branch _ ((steady_terminal _).bind fun _ => ih.bind fun b => (steady_terminal _).bind fun _ =>
        steady_pure b) plain

theorem steady_items (taking : Taking item) (steady : Steady item) : Steady (items brackets comma item last cons) := by
  have enough : ∀ w more : List τ, items brackets comma item last cons w = itemsUpTo brackets comma item last cons
      (w ++ more).length w :=
    fun w more => itemsUpTo_agree taking (Nat.le_refl _) (by rw [List.length_append]; omega)
  refine ⟨fun {w a rest n} more ran => ?_,fun {w n} more ran => ?_,fun {w n} more ran => ?_⟩
  · rw [enough w more] at ran
    exact (steady_itemsUpTo steady _).ok_stays more ran
  · rw [enough w more] at ran
    exact (steady_itemsUpTo steady _).error_stays more ran
  · rw [enough w more] at ran
    exact (steady_itemsUpTo steady _).more_grows more ran

-- What a list makes is told from its items.
theorem items_made {count : α → Nat} (total : β → Nat) (each : ∀ w a rest n, item w = (.ok a rest,n) → n = count a)
    (total_last : ∀ a, total (last a) = count a + 1) (total_cons : ∀ a b, total (cons a b) = count a + 1 + total b)
    {w rest : List τ} {b : β} {n : Nat} (ran : items brackets comma item last cons w = (.ok b rest,n)) : n =
    total b := by
  have upTo : ∀ turns w b rest n, itemsUpTo brackets comma item last cons turns w = (.ok b rest,n) → n = total b := by
    intro turns
    induction turns with
    | zero => exact fun w b rest n ran => nomatch ran
    | succ turns ih =>
      have plain : ∀ w b rest n, single comma item last cons (itemsUpTo brackets comma item last cons turns) w =
        (.ok b rest,n) →
          n = total b := by
        intro w b rest n ran
        obtain ⟨a,middle,k,l,first,behind,rfl⟩ := bind_ok_iff.mp ran
        rw [each _ _ _ _ first]
        cases middle with
        | nil => cases behind
        | cons t middle =>
          rw [branch_step] at behind
          split at behind
          · obtain ⟨_,_,_,_,took,behind1,rfl⟩ := bind_ok_iff.mp behind
            obtain ⟨_,rfl⟩ := read_ok_iff.mp took
            obtain ⟨c,_,k2,_,listed,behind2,rfl⟩ := bind_ok_iff.mp behind1
            obtain ⟨_,_,_,_,made,ended,rfl⟩ := bind_ok_iff.mp behind2
            obtain ⟨rfl,rfl⟩ := make_ok_iff.mp made
            obtain ⟨rfl,rfl,rfl⟩ := pure_ok_iff.mp ended
            rw [ih _ _ _ _ listed,total_cons]
            omega
          · obtain ⟨_,_,_,_,made,ended,rfl⟩ := bind_ok_iff.mp behind
            obtain ⟨rfl,rfl⟩ := make_ok_iff.mp made
            obtain ⟨rfl,rfl,rfl⟩ := pure_ok_iff.mp ended
            rw [total_last]
      intro w b rest n ran
      cases brackets with
      | none => exact plain w b rest n ran
      | some both =>
        obtain ⟨l,r⟩ := both
        cases w with
        | nil => cases ran
        | cons t w =>
          rw [itemsUpTo_bracketed,branch_step] at ran
          split at ran
          · obtain ⟨_,_,_,_,took,within,rfl⟩ := bind_ok_iff.mp ran
            obtain ⟨_,rfl⟩ := read_ok_iff.mp took
            obtain ⟨c,_,k2,_,listed,behind,rfl⟩ := bind_ok_iff.mp within
            obtain ⟨_,_,_,_,closed,ended,rfl⟩ := bind_ok_iff.mp behind
            obtain ⟨_,rfl⟩ := read_ok_iff.mp closed
            obtain ⟨rfl,rfl,rfl⟩ := pure_ok_iff.mp ended
            rw [ih _ _ _ _ listed]
            omega
          · exact plain _ b rest n ran
  exact upTo _ w b rest n ran

end items

end Maker
end Readers
