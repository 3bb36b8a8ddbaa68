import Minirel.ParsedRows
import Minirel.SeparatedFields

namespace Minirel.SkeletonParser
open Quoting FirstWins SeparatedFields

-- Description, Location and Country: NULL, or a free text.
def textCell : Field → Cell Char
  | .text s => .quoted s
  | _ => .bare null

def priceCell : Field → Cell Char
  | .text money => .bare (transformDollar money)
  | _ => .bare null

def dttmCell (dttm : Text) : Cell Char := .bare ((transformDttm dttm).toOption.getD [])

def itemCells (item : Item) : List (Cell Char) :=
  [.bare item.itemID,.quoted item.name,priceCell item.buyPrice,.bare (transformDollar item.firstBid),
    textCell item.description]

def auctionCells (item : Item) : List (Cell Char) :=
  [.bare item.itemID,.quoted item.seller.userID,.bare (transformDollar item.currently),.bare item.numberOfBids,
    dttmCell item.started,
    dttmCell item.ends]

def userCells (user : User) : List (Cell Char) :=
    [.quoted user.userID,.bare user.rating,textCell user.location,textCell user.country]

def categoryCells (of : Item × Text) : List (Cell Char) := [.bare of.1.itemID,.quoted of.2]

def bidCells (of : Item × Bid) : List (Cell Char) :=
  [.quoted of.2.bidder.userID,.bare of.1.itemID,dttmCell of.2.time,.bare (transformDollar of.2.amount)]

def categoryRow (of : Item × Text) : Except PyError Text := .ok (categoryKey of.1 of.2 ++ ['\n'])

-- A row is written as its cells say, so that whoever splits it at the separators outside quotes and takes
-- the quotes off has them back; what is no free text is to have neither.
structure Faithful (row : Text) (cells : List (Cell Char)) : Prop where
  written : row = render '"' '|' '\n' cells
  decoded : (∀ cell ∈ cells, cell.Plain '"' '|') → decode '"' '|' row = cells

-- The rows of a table are made for records of the input, and faithful to them.
structure Decodes {ρ : Type} (rows : List Text) (records : List ρ) (write : ρ → Except PyError Text)
    (cells : ρ → List (Cell Char)) : Prop where
  made : ∀ row ∈ rows, ∃ record ∈ records, write record = .ok row
  faithful : ∀ record ∈ records, ∀ row ∈ rows, write record = .ok row → Faithful row (cells record)

def categoryRecords (itemData : List Item) : List (Item × Text) :=
    itemData.flatMap fun item => item.category.map fun cat => (item,cat)
def bidRecords (itemData : List Item) : List (Item × Bid) :=
    itemData.flatMap fun item => item.counted.map fun bid => (item,bid)

structure Decodable (itemData : List Item) (t : Tables) : Prop where
  items : Decodes t.items.rows itemData itemRow itemCells
  auction : Decodes t.auction.rows itemData auctionRow auctionCells
  users : Decodes t.users.rows (itemData.flatMap Item.users) userRow userCells
  categories : Decodes t.categories.rows (categoryRecords itemData) categoryRow categoryCells
  bids : Decodes t.bids.rows (bidRecords itemData) (fun of => bidRow of.1 of.2) bidCells

variable {itemData : List Item} {t : Tables} {row : Text}

theorem Faithful.of_render {cells : List (Cell Char)} (some_cell : cells ≠ []) :
    Faithful (render '"' '|' '\n' cells) cells :=
  ⟨rfl,decode_render (by decide) some_cell⟩

theorem dttmCell_text {dttm time : Text} (transformed : transformDttm dttm = .ok time) :
    (dttmCell dttm).text '"' = time := by
  rw [dttmCell,transformed]
  rfl

theorem textCell_description (f : Field) : (textCell f).text '"' = descriptionField f := by cases f <;> rfl

theorem textCell_place {f : Field} {place : Text} (there : placeField f = .ok place) :
    (textCell f).text '"' = place := by
  cases f with
  | null => cases there
  | _ =>
    cases there
    rfl

theorem priceCell_text {f : Field} {price : Text} (there : buyPriceField f = .ok price) :
    (priceCell f).text '"' = price := by
  cases f with
  | null => cases there
  | _ =>
    cases there
    rfl

theorem render_cons (first second : Cell Char) (cells : List (Cell Char)) :
    render '"' '|' '\n' (first::second::cells) = first.text '"' ++ '|'::render '"' '|' '\n' (second::cells) := by
  rw [render,List.map_cons,List.map_cons,List.intercalate_cons_cons,List.append_assoc,List.append_assoc,
    List.singleton_append]
  rfl

theorem render_one (cell : Cell Char) : render '"' '|' '\n' [cell] = cell.text '"' ++ ['\n'] := by
  rw [render,List.map_singleton,List.intercalate_singleton]

theorem itemRow_written {item : Item} (made : itemRow item = .ok row) : row = render '"' '|' '\n' (itemCells item) := by
  obtain ⟨price,there,rest⟩ := bind_ok made
  cases rest
  simp only [itemCells,render_cons,render_one,priceCell_text there]
  rw [← textCell_description]
  rfl

theorem auctionRow_written {item : Item} (made : auctionRow item = .ok row) :
    row = render '"' '|' '\n' (auctionCells item) := by
  obtain ⟨started,start,rest⟩ := bind_ok made
  obtain ⟨ends,ended,rest⟩ := bind_ok rest
  cases rest
  simp only [auctionCells,render_cons,render_one,dttmCell_text start]
  rw [← dttmCell_text ended]
  rfl

theorem userRow_written {user : User} (made : userRow user = .ok row) : row = render '"' '|' '\n' (userCells user) := by
  obtain ⟨location,located,rest⟩ := bind_ok made
  obtain ⟨country,placed,rest⟩ := bind_ok rest
  cases rest
  simp only [userCells,render_cons,render_one,textCell_place located]
  rw [← textCell_place placed]
  rfl

theorem bidRow_written {item : Item} {bid : Bid} (made : bidRow item bid = .ok row) :
    row = render '"' '|' '\n' (bidCells (item,bid)) := by
  obtain ⟨time,timed,rest⟩ := bind_ok made
  cases rest
  simp only [bidCells,render_cons,render_one,dttmCell_text timed]
  rfl

theorem categoryRow_written_iff (of : Item × Text) :
    categoryKey of.1 of.2 ++ ['\n'] = render '"' '|' '\n' (categoryCells of) ↔ '"' ∉ of.2 := by
  have length : render '"' '|' '\n' (categoryCells of) = of.1.itemID ++ '|'::('"'::(doubled '"' of.2 ++ ['"'])) ++
      ['\n'] := by
    simp only [categoryCells,render_cons,render_one]
    rw [List.append_assoc]
    rfl
  rw [length,categoryKey,← doubled_eq_self_iff]
  constructor
  · intro same
    have inner := (List.cons.inj (List.cons.inj (List.append_cancel_left (List.append_cancel_right same))).2).2
    exact (List.append_cancel_right inner).symm
  · intro same
    rw [same]

-- Every row comes from a call, and every call from a record.
theorem Decodes.of_calls {ρ : Type} {call : ρ → Call} {table : Table Text Text} {records : List ρ}
    {write : ρ → Except PyError Text}
    {cells : ρ → List (Cell Char)} (ran : Table.addAll (records.map call) ⟨[],[]⟩ = .ok table)
    (writes : ∀ record, (call record).2 = write record)
    (some_cell : ∀ record, cells record ≠ [])
    (written : ∀ record ∈ records, ∀ row, write record = .ok row → row = render '"' '|' '\n' (cells record)) :
    Decodes table.rows records write cells where
  made := by
    intro row member
    obtain ⟨_,first,made⟩ := (mem_rows ran row).mp member
    obtain ⟨record,listed,rfl⟩ := List.mem_map.mp first.mem
    exact ⟨record,listed,(writes record).symm.trans made⟩
  faithful := by
    intro record listed row _ made
    rw [written record listed row made]
    exact .of_render (some_cell record)

theorem categoryCalls_eq (itemData : List Item) : (itemData.flatMap fun item => item.category.map (categoryCall item)) =
    (categoryRecords itemData).map fun of => categoryCall of.1 of.2 := by
  rw [categoryRecords,List.map_flatMap]
  refine congrArg (List.flatMap · itemData) (funext fun item => ?_)
  rw [List.map_map]
  rfl

theorem bidCalls_eq (itemData : List Item) : (itemData.flatMap fun item => item.counted.map (bidCall item)) =
    (bidRecords itemData).map fun of => bidCall of.1 of.2 := by
  rw [bidRecords,List.map_flatMap]
  refine congrArg (List.flatMap · itemData) (funext fun item => ?_)
  rw [List.map_map]
  rfl

theorem mem_categoryRecords {of : Item × Text} : of ∈ categoryRecords itemData ↔ of.1 ∈ itemData ∧
    of.2 ∈ of.1.category := by
  obtain ⟨item,cat⟩ := of
  rw [categoryRecords,List.mem_flatMap]
  constructor
  · rintro ⟨item',listed,member⟩
    obtain ⟨cat',inside,same⟩ := List.mem_map.mp member
    cases same
    exact ⟨listed,inside⟩
  · rintro ⟨listed,inside⟩
    exact ⟨item,listed,List.mem_map_of_mem inside⟩

-- The row of every category is in the table.
theorem category_kept (ran : Table.addAll ((categoryRecords itemData).map fun of => categoryCall of.1 of.2) ⟨[],[]⟩ =
    .ok t.categories)
    {of : Item × Text} (member : of ∈ categoryRecords itemData) : categoryKey of.1 of.2 ++ ['\n'] ∈
    t.categories.rows := by
  have called := List.mem_map_of_mem (f:=fun of : Item × Text => categoryCall of.1 of.2) member
  obtain ⟨call,first,same⟩ : ∃ call, First Prod.fst _ call ∧ call.1 = (categoryCall of.1 of.2).1 := exists_first called
  obtain ⟨other,_,rfl⟩ := List.mem_map.mp first.mem
  have key : categoryKey other.1 other.2 = categoryKey of.1 of.2 := same
  rw [← key]
  exact (mem_rows ran _).mpr ⟨_,first,rfl⟩

theorem rows_decodable_iff (parsed : parseJson itemData = .ok t) :
    Decodable itemData t ↔ ∀ item ∈ itemData, ∀ cat ∈ item.category, '"' ∉ cat := by
  have adds := addItems_adds parsed
  have categories := adds.categories
  have bids := adds.bids
  rw [categoryCalls_eq] at categories
  rw [bidCalls_eq] at bids
  constructor
  · intro decodable item listed cat inside
    have member : (item,cat) ∈ categoryRecords itemData := mem_categoryRecords.mpr ⟨listed,inside⟩
    exact (categoryRow_written_iff (item,cat)).mp
      (decodable.categories.faithful (item,cat) member _ (category_kept categories member) rfl).written
  · intro plain
    refine ⟨.of_calls adds.items (fun _ => rfl) (fun _ => List.cons_ne_nil _ _) fun _ _ _ => itemRow_written,
      .of_calls adds.auction (fun _ => rfl) (fun _ => List.cons_ne_nil _ _) fun _ _ _ => auctionRow_written,
      .of_calls adds.users (fun _ => rfl) (fun _ => List.cons_ne_nil _ _) fun _ _ _ => userRow_written,
      .of_calls categories (fun _ => rfl) (fun _ => List.cons_ne_nil _ _) fun of listed row made => ?_,
      .of_calls bids (fun _ => rfl) (fun _ => List.cons_ne_nil _ _) fun _ _ _ => bidRow_written⟩
    obtain ⟨in_data,inside⟩ := mem_categoryRecords.mp listed
    cases made
    exact (categoryRow_written_iff of).mpr (plain of.1 in_data of.2 inside)

def auctionDay : Text := ['D','e','c','-','1','0','-','0','1',' ','1','2']

-- An item without bids, in one category.
def itemIn (cat : Text) : Item :=
  ⟨['1'],['a','"','b'],.absent,['$','5'],.null,⟨['u'],['7']⟩,.text ['x','|','y'],.absent,['$','5'],['0'],
    auctionDay,auctionDay,[cat],none⟩

theorem rows_decodable_iff_pipe : ∃ t, parseJson [itemIn ['c','|','d']] = .ok t ∧
    Decodable [itemIn ['c','|','d']] t := by
  have parsed : parseJson [itemIn ['c','|','d']] = .ok _ := rfl
  exact ⟨_,parsed,(rows_decodable_iff parsed).mpr (by decide)⟩

-- c"|d is read as two fields.
theorem category_not_escaped : ∃ t row, parseJson [itemIn ['c','"','|','d']] = .ok t ∧ row ∈ t.categories.rows ∧
    row = ['1','|','"','c','"','|','d','"','\n'] ∧ decode '"' '|' row = [.bare ['1'],.quoted ['c'],.bare ['d','"']] ∧
    ¬ Decodable [itemIn ['c','"','|','d']] t := by
  refine ⟨_,_,rfl,List.mem_singleton_self _,rfl,by decide,fun decodable => ?_⟩
  have written := (decodable.categories.faithful (itemIn ['c','"','|','d'],['c','"','|','d']) (by decide) _
    (List.mem_singleton_self _) rfl).written
  exact absurd written (by decide)

end Minirel.SkeletonParser
