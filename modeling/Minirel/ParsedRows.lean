import Minirel.SkeletonParser

namespace Minirel.SkeletonParser
open Quoting FirstWins

-- A key that is looked for, with the row that is made when it is missing.
abbrev Call := Text × Except PyError Text

structure Calls where
  items : List Call
  auction : List Call
  users : List Call
  categories : List Call
  bids : List Call

def Calls.none : Calls := ⟨[],[],[],[],[]⟩

def Calls.append (c d : Calls) : Calls :=
  ⟨c.items ++ d.items,c.auction ++ d.auction,c.users ++ d.users,c.categories ++ d.categories,c.bids ++ d.bids⟩

-- The bids that are looked at.
def Item.counted (item : Item) : List Bid :=
  match int item.numberOfBids with
  | .ok number => if number > 0 then item.bids.getD [] else []
  | .error _ => []

-- The users an item describes, in the order of the parser.
def Item.users (item : Item) : List User := item.sellerUser::item.counted.map Bid.bidder

def itemCall (item : Item) : Call := (item.itemID ++ ['|'],itemRow item)
def auctionCall (item : Item) : Call := (item.itemID ++ '|'::(quote item.seller.userID ++ ['|']),auctionRow item)
def userCall (user : User) : Call := (userKey user,userRow user)
def categoryCall (item : Item) (cat : Text) : Call := (categoryKey item cat,.ok (categoryKey item cat ++ ['\n']))

def bidCall (item : Item) (bid : Bid) : Call :=
  (item.itemID ++ '|'::(quote bid.bidder.userID ++ '|'::(transformDttm bid.time).toOption.getD []),bidRow item bid)

def Item.calls (item : Item) : Calls :=
  ⟨[itemCall item],[auctionCall item],item.users.map userCall,item.category.map (categoryCall item),item.counted.map
    (bidCall item)⟩

-- The tables of t' are those of t with the calls made in their order.
structure Adds (c : Calls) (t t' : Tables) : Prop where
  items : Table.addAll c.items t.items = .ok t'.items
  auction : Table.addAll c.auction t.auction = .ok t'.auction
  users : Table.addAll c.users t.users = .ok t'.users
  categories : Table.addAll c.categories t.categories = .ok t'.categories
  bids : Table.addAll c.bids t.bids = .ok t'.bids

variable {c d : Calls} {t t' t'' : Tables} {item : Item}

theorem Adds.refl (t : Tables) : Adds .none t t := ⟨rfl,rfl,rfl,rfl,rfl⟩

theorem Adds.trans (first : Adds c t t') (second : Adds d t' t'') : Adds (c.append d) t t'' where
  items := Table.addAll_append first.items second.items
  auction := Table.addAll_append first.auction second.auction
  users := Table.addAll_append first.users second.users
  categories := Table.addAll_append first.categories second.categories
  bids := Table.addAll_append first.bids second.bids

theorem addUser_adds {user : User} (ran : addUser user t = .ok t') : Adds ⟨[],[],[userCall user],[],[]⟩ t t' := by
  obtain ⟨users,added,rest⟩ := bind_ok ran
  cases rest
  exact ⟨rfl,rfl,Table.addAll_one added,rfl,rfl⟩

theorem addCategories_adds {cats : List Text} (ran : addCategories item cats t = .ok t') :
    Adds ⟨[],[],[],cats.map (categoryCall item),[]⟩ t t' := by
  induction cats generalizing t with
  | nil =>
    cases ran
    exact .refl _
  | cons cat cats ih =>
    obtain ⟨categories,added,rest⟩ := bind_ok ran
    have one : Adds ⟨[],[],[],[categoryCall item cat],[]⟩ t {t with categories := categories} :=
      ⟨rfl,rfl,rfl,Table.addAll_one added,rfl⟩
    exact one.trans (ih rest)

theorem addBids_adds {bids : List Bid} (ran : addBids item bids t = .ok t') :
    Adds ⟨[],[],(bids.map Bid.bidder).map userCall,[],bids.map (bidCall item)⟩ t t' := by
  induction bids generalizing t with
  | nil =>
    cases ran
    exact .refl _
  | cons bid bids ih =>
    obtain ⟨time,transformed,rest⟩ := bind_ok ran
    obtain ⟨table,added,rest⟩ := bind_ok rest
    obtain ⟨t1,described,rest⟩ := bind_ok rest
    have key : (bidCall item bid).1 = item.itemID ++ '|'::(quote bid.bidder.userID ++ '|'::time) := by
      rw [bidCall,transformed]
      rfl
    rw [← key] at added
    have one : Adds ⟨[],[],[],[],[bidCall item bid]⟩ t {t with bids := table} :=
      ⟨rfl,rfl,rfl,rfl,Table.addAll_one added⟩
    exact (one.trans (addUser_adds described)).trans (ih rest)

theorem addItem_adds (ran : addItem item t = .ok t') : Adds item.calls t t' := by
  obtain ⟨items,added_item,rest⟩ := bind_ok ran
  obtain ⟨auction,added_auction,rest⟩ := bind_ok rest
  obtain ⟨t1,seller,rest⟩ := bind_ok rest
  obtain ⟨t2,categories,rest⟩ := bind_ok rest
  obtain ⟨number,counted,rest⟩ := bind_ok rest
  have first : Adds ⟨[itemCall item],[auctionCall item],[],[],[]⟩ t {t with items := items,auction := auction} :=
    ⟨Table.addAll_one added_item,Table.addAll_one added_auction,rfl,rfl,rfl⟩
  have before := (first.trans (addUser_adds seller)).trans (addCategories_adds categories)
  have bidders : Adds ⟨[],[],(item.counted.map Bid.bidder).map userCall,[],item.counted.map (bidCall item)⟩ t2 t' := by
    rw [Item.counted,counted]
    dsimp only at rest ⊢
    by_cases some_bid : number > 0
    · rw [if_pos some_bid] at rest ⊢
      cases listed : item.bids with
      | none =>
        rw [listed] at rest
        cases rest
      | some bids =>
        rw [listed] at rest
        exact addBids_adds rest
    · rw [if_neg some_bid] at rest ⊢
      cases rest
      exact .refl _
  have both := before.trans bidders
  simp only [Calls.append,List.append_nil,List.nil_append] at both
  exact both

theorem addItems_adds {itemData : List Item} (ran : addItems itemData t = .ok t') :
    Adds ⟨itemData.map itemCall,itemData.map auctionCall,(itemData.flatMap Item.users).map userCall,
      itemData.flatMap fun item => item.category.map (categoryCall item),itemData.flatMap fun item =>
        item.counted.map (bidCall item)⟩ t t' := by
  induction itemData generalizing t with
  | nil =>
    cases ran
    exact .refl _
  | cons item items ih =>
    obtain ⟨t1,one,rest⟩ := bind_ok ran
    have both := (addItem_adds one).trans (ih rest)
    rw [List.flatMap_cons,List.map_append]
    exact both

-- A table has the rows of the first calls of their keys, and nothing else.
theorem mem_rows {calls : List Call} {table : Table Text Text} (ran : Table.addAll calls ⟨[],[]⟩ = .ok table)
    (row : Text) :
    row ∈ table.rows ↔ ∃ call, First Prod.fst calls call ∧ call.2 = .ok row := by
  rw [Table.mem_addAll ran]
  constructor
  · rintro (old | ⟨call,first,_,made⟩)
    · exact absurd old List.not_mem_nil
    · exact ⟨call,first,made⟩
  · rintro ⟨call,first,made⟩
    exact .inr ⟨call,first,List.not_mem_nil,made⟩

end Minirel.SkeletonParser
