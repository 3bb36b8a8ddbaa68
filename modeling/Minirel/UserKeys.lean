import Mathlib.Data.Char
import Mathlib.Data.List.Lex
import Minirel.DecodableRows

namespace Minirel.SkeletonParser
open Quoting FirstWins SeparatedFields

theorem lines_newline (s : Text) : lines ('\n'::s) = []::lines s := by rw [lines,if_pos rfl]

theorem lines_cons {c : Char} (other : c ≠ '\n') (s : Text) :
    lines (c::s) = match lines s with
      | [] => [[c]]
      | line::rest => (c::line)::rest := by
  rw [lines]
  exact if_neg other

theorem lines_ne_nil {s : Text} (some_char : s ≠ []) : lines s ≠ [] := by
  cases s with
  | nil => exact absurd rfl some_char
  | cons c s =>
    by_cases newline : c = '\n'
    · rw [newline,lines_newline]
      exact List.cons_ne_nil _ _
    · rw [lines_cons newline]
      split <;> exact List.cons_ne_nil _ _

-- What follows a newline does not change the lines in front.
theorem lines_append (s rest : Text) : lines (s ++ ['\n'] ++ rest) = lines (s ++ ['\n']) ++ lines rest := by
  induction s with
  | nil => rfl
  | cons c s ih =>
    rw [List.cons_append,List.cons_append]
    by_cases newline : c = '\n'
    · rw [newline,lines_newline,lines_newline,ih]
      rfl
    · rw [lines_cons newline,lines_cons newline,ih]
      cases front : lines (s ++ ['\n']) with
      | nil => exact absurd front (lines_ne_nil (List.concat_ne_nil _ _))
      | cons line before => rfl

theorem lines_one {s : Text} (one : '\n' ∉ s) : lines (s ++ ['\n']) = [s] := by
  induction s with
  | nil => rfl
  | cons c s ih =>
    rw [List.mem_cons,not_or] at one
    rw [List.cons_append,lines_cons (Ne.symm one.1),ih one.2]

def Ended (row : Text) : Prop := ∃ s, row = s ++ ['\n']

theorem lines_flatten {rows : List Text} (ended : ∀ row ∈ rows, Ended row) :
    lines rows.flatten = rows.flatMap lines := by
  induction rows with
  | nil => rfl
  | cons row rows ih =>
    obtain ⟨s,rfl⟩ := ended row List.mem_cons_self
    rw [List.flatten_cons,lines_append,ih (fun other member => ended other (List.mem_cons_of_mem _ member)),
      List.flatMap_cons]

section uniq

variable {file : List Text}

theorem mem_destutter {line first : Text} : line ∈ file.destutter' (· ≠ ·) first ↔ line = first ∨ line ∈ file := by
  induction file generalizing first with
  | nil =>
    rw [List.destutter'_nil,List.mem_singleton]
    exact (or_iff_left List.not_mem_nil).symm
  | cons second file ih =>
    by_cases other : first ≠ second
    · rw [List.destutter'_cons_pos _ other,List.mem_cons,ih,List.mem_cons]
    · rw [List.destutter'_cons_neg _ other,ih,List.mem_cons,not_not.mp other]
      exact or_self_left.symm

theorem mem_uniq {line : Text} : line ∈ uniq file ↔ line ∈ file := by
  cases file with
  | nil => exact Iff.rfl
  | cons first file =>
    rw [uniq,List.destutter_cons',mem_destutter,List.mem_cons]

theorem mem_sortUniq (collation : Collation) (text line : Text) : line ∈ sortUniq collation text ↔
    line ∈ lines text := by
  rw [sortUniq,mem_uniq,List.mem_mergeSort]

-- Sorted lines of which no two neighbours are the same are all different.
theorem nodup_of_sorted (collation : Collation) (sorted : file.Pairwise fun a b => collation.le a b)
    (apart : file.IsChain (· ≠ ·)) : file.Nodup := by
  induction file with
  | nil => exact List.nodup_nil
  | cons first file ih =>
    obtain ⟨least,sorted⟩ := List.pairwise_cons.mp sorted
    refine List.nodup_cons.mpr ⟨fun again => ?_,ih sorted apart.of_cons⟩
    cases file with
    | nil => exact absurd again List.not_mem_nil
    | cons second file =>
      have other := (List.isChain_cons_cons.mp apart).1
      have later : first ∈ file := (List.mem_cons.mp again).resolve_left other
      exact other (collation.antisymm _ _ (least second List.mem_cons_self)
        ((List.pairwise_cons.mp sorted).1 first later))

theorem nodup_sortUniq (collation : Collation) (text : Text) : (sortUniq collation text).Nodup :=
  nodup_of_sorted collation ((List.pairwise_mergeSort collation.trans collation.total (lines text)).sublist
    (List.destutter_sublist _ _))
    (List.isChain_destutter _ _)

end uniq

-- A line for a user begins with the quoted ID and a separator.
def Names (userID line : Text) : Prop := quote userID ++ ['|'] <+: line

instance (userID line : Text) : Decidable (Names userID line) := inferInstanceAs (Decidable (_ <+: _))

-- What PRIMARY KEY of Users wants of users.dat.
def KeysUnique (users : List Text) : Prop := ∀ userID, (users.filter fun line => decide (Names userID line)).length ≤ 1

theorem length_le_one {l : List Text} (nodup : l.Nodup) : l.length ≤ 1 ↔ ∀ a ∈ l, ∀ b ∈ l, a = b := by
  constructor
  · intro short a in_a b in_b
    cases l with
    | nil => exact absurd in_a List.not_mem_nil
    | cons c l =>
      obtain rfl := List.eq_nil_of_length_eq_zero (Nat.le_zero.mp (Nat.le_of_succ_le_succ short))
      rw [List.mem_singleton.mp in_a,List.mem_singleton.mp in_b]
  · intro same
    cases l with
    | nil => exact Nat.zero_le _
    | cons a l =>
      cases l with
      | nil => exact Nat.le_refl _
      | cons b l =>
        have equal := same a List.mem_cons_self b (List.mem_cons_of_mem _ List.mem_cons_self)
        exact absurd (equal ▸ List.mem_cons_self) (List.nodup_cons.mp nodup).1

theorem keysUnique_iff {users : List Text} (nodup : users.Nodup) :
    KeysUnique users ↔ ∀ userID, ∀ line ∈ users, ∀ line' ∈ users, Names userID line → Names userID line' →
      line = line' := by
  refine forall_congr' fun userID => ?_
  rw [length_le_one (nodup.filter _)]
  constructor
  · intro same line listed line' listed' names names'
    exact same line (List.mem_filter.mpr ⟨listed,decide_eq_true names⟩) line'
      (List.mem_filter.mpr ⟨listed',decide_eq_true names'⟩)
  · intro same line filtered line' filtered'
    obtain ⟨listed,names⟩ := List.mem_filter.mp filtered
    obtain ⟨listed',names'⟩ := List.mem_filter.mp filtered'
    exact same line listed line' listed' (of_decide_eq_true names) (of_decide_eq_true names')

-- The files that are parsed, with what becomes of them.
def parsedFiles (load : Text → Except PyError (List Item)) : List Text → List (List Item × Tables)
  | [] => []
  | file::rest =>
    if isJson file then
      match load file with
      | .error _ => []
      | .ok itemData =>
        match parseJson itemData with
        | .error _ => []
        | .ok t => (itemData,t)::parsedFiles load rest
    else parsedFiles load rest

variable {sets : SetOrder} {load : Text → Except PyError (List Item)}

theorem parsedFiles_parsed {files : List Text} {file : List Item × Tables} (member : file ∈ parsedFiles load files) :
    parseJson file.1 = .ok file.2 := by
  induction files with
  | nil => exact absurd member List.not_mem_nil
  | cons name rest ih =>
    rw [parsedFiles] at member
    split at member
    · split at member
      · exact absurd member List.not_mem_nil
      · split at member
        · exact absurd member List.not_mem_nil
        · next parsed =>
          rcases List.mem_cons.mp member with rfl | later
          · exact parsed
          · exact ih later
    · exact ih member

theorem parseFiles_users (files : List Text) (out : Outputs) :
    (parseFiles sets load files out).1.userTest = out.userTest ++ ((parsedFiles load files).flatMap fun file =>
      sets.order file.2.users.rows).flatten := by
  induction files generalizing out with
  | nil => exact (List.append_nil _).symm
  | cons name rest ih =>
    rw [parseFiles,parsedFiles]
    by_cases json : isJson name
    · rw [if_pos json,if_pos json]
      cases load name with
      | error e => exact (List.append_nil _).symm
      | ok itemData =>
        have loaded : (Except.ok itemData >>= parseJson) = parseJson itemData := rfl
        dsimp only
        rw [loaded]
        cases parseJson itemData with
        | error e => exact (List.append_nil _).symm
        | ok t =>
          dsimp only
          rw [ih,Outputs.append,List.flatMap_cons,List.flatten_append,List.append_assoc]
    · rw [if_neg json,if_neg json]
      exact ih out

-- The description of a user that a file is the first to give.
def FirstDescribed (itemData : List Item) (user : User) : Prop := First User.userID (itemData.flatMap Item.users) user

theorem userKey_inj (user user' : User) : userKey user = userKey user' ↔ user.userID = user'.userID :=
  ⟨fun same => enclose_inj (List.append_cancel_right same),fun same => by rw [userKey,userKey,same]⟩

theorem userRow_ended {user : User} {row : Text} (made : userRow user = .ok row) : Ended row := by
  rw [userRow_written made]
  exact ⟨_,rfl⟩

section parsed

variable {itemData : List Item} {t : Tables}

theorem first_userCall {call : Call} : First Prod.fst ((itemData.flatMap Item.users).map userCall) call ↔
    ∃ user, FirstDescribed itemData user ∧ userCall user = call := by
  rw [first_map]
  exact exists_congr fun user => and_congr_left fun _ => first_congr userKey_inj

theorem mem_userRows (parsed : parseJson itemData = .ok t) (row : Text) :
    row ∈ t.users.rows ↔ ∃ user, FirstDescribed itemData user ∧ userRow user = .ok row := by
  rw [mem_rows (addItems_adds parsed).users]
  constructor
  · rintro ⟨call,first,made⟩
    obtain ⟨user,described,rfl⟩ := first_userCall.mp first
    exact ⟨user,described,made⟩
  · rintro ⟨user,described,made⟩
    exact ⟨userCall user,first_userCall.mpr ⟨user,described,rfl⟩,made⟩

end parsed

-- A row that is written for the first description in one of the files.
def Described (load : Text → Except PyError (List Item)) (argv : List Text) (user : User) (row : Text) : Prop :=
  ∃ file ∈ parsedFiles load argv.tail, FirstDescribed file.1 user ∧ userRow user = .ok row

theorem Described.made {argv : List Text} {user : User} {row : Text} (described : Described load argv user row) :
    userRow user = .ok row := by
  obtain ⟨_,_,_,made⟩ := described
  exact made

theorem mem_users (collation : Collation) (argv : List Text) (line : Text) :
    line ∈ (runParser sets collation load argv).users ↔ ∃ user row, Described load argv user row ∧
      line ∈ lines row := by
  have written : (main sets load argv ⟨[],[],[],[],[]⟩).1.userTest =
      ((parsedFiles load argv.tail).flatMap fun file => sets.order file.2.users.rows).flatten := by
    unfold main
    split
    · next few =>
      have no_file : argv.tail = [] := List.eq_nil_of_length_eq_zero (by rw [List.length_tail]; omega)
      rw [no_file]
      rfl
    · exact parseFiles_users argv.tail _
  have ended : ∀ row ∈ (parsedFiles load argv.tail).flatMap fun file => sets.order file.2.users.rows, Ended row := by
    intro row member
    obtain ⟨file,listed,inside⟩ := List.mem_flatMap.mp member
    obtain ⟨user,_,made⟩ := (mem_userRows (parsedFiles_parsed listed) row).mp ((sets.perm _).mem_iff.mp inside)
    exact userRow_ended made
  change line ∈ sortUniq collation _ ↔ _
  rw [mem_sortUniq,written,lines_flatten ended,List.mem_flatMap]
  constructor
  · rintro ⟨row,member,inside⟩
    obtain ⟨file,listed,there⟩ := List.mem_flatMap.mp member
    obtain ⟨user,described,made⟩ := (mem_userRows (parsedFiles_parsed listed) row).mp ((sets.perm _).mem_iff.mp there)
    exact ⟨user,row,⟨file,listed,described,made⟩,inside⟩
  · rintro ⟨user,row,⟨file,listed,described,made⟩,inside⟩
    have there := (mem_userRows (parsedFiles_parsed listed) row).mpr ⟨user,described,made⟩
    exact ⟨row,List.mem_flatMap.mpr ⟨file,listed,(sets.perm _).mem_iff.mpr there⟩,inside⟩

theorem nodup_users (collation : Collation) (argv : List Text) : (runParser sets collation load argv).users.Nodup :=
    nodup_sortUniq collation _

-- All that the files say of a user first is written on the same line.
def Consistent (load : Text → Except PyError (List Item)) (argv : List Text) : Prop :=
  ∀ user row user' row', Described load argv user row → Described load argv user' row' →
    ∀ userID, ∀ line ∈ lines row, ∀ line' ∈ lines row', Names userID line → Names userID line' → line = line'

-- The files give the same rating and places first.
def Agree (load : Text → Except PyError (List Item)) (argv : List Text) : Prop :=
  ∀ user row user' row', Described load argv user row → Described load argv user' row' → user.userID = user'.userID →
    user = user'

-- No text of it breaks the line, and the rating is no field of its own making.
structure Regular (user : User) : Prop where
  one_line : ∀ cell ∈ userCells user, '\n' ∉ cell.text '"'
  rating : (Cell.bare user.rating).Plain '"' '|'

section regular

variable {user user' : User} {row row' : Text}

theorem names_iff {userID of rest : Text} : Names userID (quote of ++ '|'::rest) ↔ userID = of := by
  constructor
  · rintro ⟨more,same⟩
    rw [List.append_assoc,List.singleton_append] at same
    have fields := congrArg (split '"' '|' false) same
    rw [quote,quote,split_enclose (by decide),split_enclose (by decide),split_separator,split_separator,extend,
      extend,List.append_nil,
      List.append_nil] at fields
    exact enclose_inj (List.cons.inj fields).1
  · rintro rfl
    exact ⟨rest,by rw [List.append_assoc,List.singleton_append]⟩

theorem Regular.line (regular : Regular user) (made : userRow user = .ok row) :
    ∃ rest, row = quote user.userID ++ '|'::rest ++ ['\n'] ∧ lines row = [quote user.userID ++ '|'::rest] := by
  have written := userRow_written made
  have one := regular.one_line
  simp only [userCells,render_cons,render_one] at written
  rw [userCells,List.forall_mem_cons,List.forall_mem_cons,List.forall_mem_cons,List.forall_mem_singleton] at one
  obtain ⟨in_id,in_rating,in_location,in_country⟩ := one
  have shape : row = quote user.userID ++ '|'::(user.rating ++
      '|'::((textCell user.location).text '"' ++ '|'::(textCell user.country).text '"')) ++ ['\n'] := by
    rw [written]
    simp only [List.append_assoc,List.cons_append]
    rfl
  refine ⟨_,shape,?_⟩
  rw [shape,lines_one]
  simp only [List.mem_append,List.mem_cons,not_or]
  exact ⟨in_id,by decide,in_rating,by decide,in_location,by decide,in_country⟩

theorem textCell_plain (f : Field) : (textCell f).Plain '"' '|' := by
  cases f with
  | text s => trivial
  | _ => exact ⟨by decide,by decide⟩

theorem textCell_inj {f g : Field} {place place' : Text} (there : placeField f = .ok place)
    (there' : placeField g = .ok place')
    (same : textCell f = textCell g) : f = g := by
  cases f <;> cases g <;> cases there <;> cases there' <;> cases same <;> rfl

theorem userRow_places {user : User} {row : Text} (made : userRow user = .ok row) :
    ∃ location country, placeField user.location = .ok location ∧ placeField user.country = .ok country := by
  obtain ⟨location,located,rest⟩ := bind_ok made
  obtain ⟨country,placed,_⟩ := bind_ok rest
  exact ⟨location,country,located,placed⟩

-- Rows read alike come from the same description.
theorem Regular.same (regular : Regular user) (regular' : Regular user') (made : userRow user = .ok row)
    (made' : userRow user' = .ok row) :
    user = user' := by
  have read : ∀ {u : User}, Regular u → userRow u = .ok row → decode '"' '|' row = userCells u := by
    intro u plain row_of
    rw [userRow_written row_of]
    refine decode_render (by decide) (List.cons_ne_nil _ _) ?_
    rw [userCells,List.forall_mem_cons,List.forall_mem_cons,List.forall_mem_cons,List.forall_mem_singleton]
    exact ⟨trivial,plain.rating,textCell_plain _,textCell_plain _⟩
  have cells := (read regular made).symm.trans (read regular' made')
  obtain ⟨location,country,located,placed⟩ := userRow_places made
  obtain ⟨location',country',located',placed'⟩ := userRow_places made'
  obtain ⟨id,rest⟩ := List.cons.inj cells
  obtain ⟨rating,rest⟩ := List.cons.inj rest
  obtain ⟨first,rest⟩ := List.cons.inj rest
  obtain ⟨second,_⟩ := List.cons.inj rest
  obtain ⟨userID,rate,loc,nation⟩ := user
  obtain ⟨userID',rate',loc',nation'⟩ := user'
  cases Cell.quoted.inj id
  cases Cell.bare.inj rating
  cases textCell_inj located located' first
  cases textCell_inj placed placed' second
  rfl

end regular

theorem consistent_iff_agree {argv : List Text} (regular : ∀ user row, Described load argv user row → Regular user) :
    Consistent load argv ↔ Agree load argv := by
  constructor
  · intro consistent user row user' row' described described' same
    obtain ⟨rest,shape,only⟩ := (regular user row described).line described.made
    obtain ⟨rest',shape',only'⟩ := (regular user' row' described').line described'.made
    have equal := consistent user row user' row' described described' user.userID _ (only ▸ List.mem_singleton_self _) _
      (only' ▸ List.mem_singleton_self _) (names_iff.mpr rfl) (names_iff.mpr same)
    have same_row : row = row' := by rw [shape,shape',equal]
    subst same_row
    exact (regular user row described).same (regular user' row described') described.made described'.made
  · intro agree user row user' row' described described' userID line inside line' inside' names names'
    obtain ⟨rest,shape,only⟩ := (regular user row described).line described.made
    obtain ⟨rest',shape',only'⟩ := (regular user' row' described').line described'.made
    rw [only,List.mem_singleton] at inside
    rw [only',List.mem_singleton] at inside'
    rw [inside] at names
    rw [inside'] at names'
    have same := agree user row user' row' described described' ((names_iff.mp names).symm.trans (names_iff.mp names'))
    subst same
    cases described.made.symm.trans described'.made
    rw [inside,inside']
    exact List.head_eq_of_cons_eq (only.symm.trans only')

theorem user_keys_unique_iff (sets : SetOrder) (collation : Collation) (load : Text → Except PyError (List Item))
    (argv : List Text) :
    (KeysUnique (runParser sets collation load argv).users ↔ Consistent load argv) ∧
    ((∀ user row, Described load argv user row → Regular user) → (Consistent load argv ↔ Agree load argv)) := by
  refine ⟨?_,consistent_iff_agree⟩
  rw [keysUnique_iff (nodup_users collation argv)]
  constructor
  · intro unique user row user' row' described described' userID line inside line' inside'
    exact unique userID line ((mem_users collation argv line).mpr ⟨user,row,described,inside⟩) line'
      ((mem_users collation argv line').mpr ⟨user',row',described',inside'⟩)
  · intro consistent userID line listed line' listed'
    obtain ⟨user,row,described,inside⟩ := (mem_users collation argv line).mp listed
    obtain ⟨user',row',described',inside'⟩ := (mem_users collation argv line').mp listed'
    exact consistent user row user' row' described described' userID line inside line' inside'

def byCode : Collation where
  le a b := decide (a ≤ b)
  total a b := by
    rw [Bool.or_eq_true,decide_eq_true_iff,decide_eq_true_iff]
    exact le_total a b
  trans a b c first second := decide_eq_true (le_trans (of_decide_eq_true first) (of_decide_eq_true second))
  antisymm a b first second := le_antisymm (of_decide_eq_true first) (of_decide_eq_true second)

def asAdded : SetOrder := ⟨id,List.Perm.refl⟩

def fileA : Text := ['a','.','j','s','o','n']
def fileB : Text := ['b','.','j','s','o','n']

-- The seller u, with a rating in a.json and one in all others.
def ratedIn (inA inB : Text) (file : Text) : Except PyError (List Item) :=
  .ok [{itemIn [] with seller := ⟨['u'],if file = fileA then inA else inB⟩}]

theorem user_keys_unique_iff_same : KeysUnique
    (runParser asAdded byCode (ratedIn ['7'] ['7']) [[],fileA,fileB]).users := by
  obtain ⟨unique,agreeing⟩ := user_keys_unique_iff asAdded byCode (ratedIn ['7'] ['7']) [[],fileA,fileB]
  have files : (parsedFiles (ratedIn ['7'] ['7']) [fileA,fileB]).flatMap (fun file => file.1.flatMap Item.users) =
      List.replicate 2 ⟨['u'],['7'],.text ['x','|','y'],.absent⟩ := by decide
  have only : ∀ user row, Described (ratedIn ['7'] ['7']) [[],fileA,fileB] user row →
      user = ⟨['u'],['7'],.text ['x','|','y'],.absent⟩ := by
    intro user row described
    obtain ⟨file,listed,first,_⟩ := described
    exact List.eq_of_mem_replicate (files ▸ List.mem_flatMap.mpr ⟨file,listed,first.mem⟩)
  refine unique.mpr ((agreeing fun user row described => ?_).mpr fun user row user' row' described described' _ => ?_)
  · rw [only user row described]
    exact ⟨by decide,by decide,by decide⟩
  · rw [only user row described,only user' row' described']

-- u has the rating 7 in a.json and 8 in b.json.
theorem user_rated_twice : ¬ KeysUnique (runParser asAdded byCode (ratedIn ['7'] ['8']) [[],fileA,fileB]).users := by
  rw [keysUnique_iff (nodup_users byCode _)]
  intro unique
  have listed : ∀ file ∈ parsedFiles (ratedIn ['7'] ['8']) [fileA,fileB], ∀ user, file.1.flatMap Item.users = [user] →
    ∀ row, userRow user = .ok row →
      ∀ line, lines row = [line] → line ∈ (runParser asAdded byCode (ratedIn ['7'] ['8']) [[],fileA,fileB]).users := by
    intro file member user only row made line alone
    refine (mem_users byCode _ line).mpr ⟨user,row,⟨file,member,?_,made⟩,alone ▸ List.mem_singleton_self _⟩
    rw [FirstDescribed,only]
    exact first_cons.mpr (.inl rfl)
  have seven := listed _ List.mem_cons_self _ rfl _ rfl _ rfl
  have eight := listed _ (List.mem_cons_of_mem _ List.mem_cons_self) _ rfl _ rfl _ rfl
  exact absurd (unique ['u'] _ seven _ eight (by decide) (by decide)) (by decide)

end Minirel.SkeletonParser
