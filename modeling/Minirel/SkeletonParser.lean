import Minirel.Quoting
import Minirel.FirstWins
import Mathlib.Data.List.Destutter
import Mathlib.Data.List.DropRight

namespace Minirel.SkeletonParser
open Quoting FirstWins

-- A string of Python.
abbrev Text := List Char

-- Only that an exception ends the program matters.
inductive PyError where
  | systemExit | unreadable | indexError | valueError | typeError | attributeError
  deriving DecidableEq,Repr

-- str.isspace, and the zeros of the decimal digits, each followed by the other nine.
def isSpace (c : Char) : Bool :=
  c.toNat ∈ [9,10,11,12,13,28,29,30,31,32,133,160,5760,8192,8193,8194,8195,8196,8197,8198,8199,8200,8201,8202,
    8232,8233,8239,8287,12288]

def decimalZeros : List Nat :=
  [48,1632,1776,1984,2406,2534,2662,2790,2918,3046,3174,3302,3430,3558,3664,3792,3872,4160,4240,6112,6160,
    6470,6608,6784,6800,6992,7088,7232,
    7248,42528,43216,43264,43472,43504,43600,44016,65296,66720,68912,69734,69872,69942,70096,70384,70736,70864,71248,71360,71472,71904,72016,
    72784,73040,73120,92768,92864,93008,120782,120792,120802,120812,120822,123200,123632,125264,130032]

def decimal (c : Char) : Option Nat :=
    (decimalZeros.find? fun first => first ≤ c.toNat ∧ c.toNat < first + 10).map fun first => c.toNat - first

def strip (space : Char → Bool) (s : Text) : Text := (s.dropWhile space).rdropWhile space

-- Digits behind the first, with single underscores between them.
def digits (n : Nat) : Text → Option Nat
  | [] => some n
  | '_'::c::s => (decimal c).bind fun d => digits (10 * n + d) s
  | c::s => (decimal c).bind fun d => digits (10 * n + d) s

def natural : Text → Option Nat
  | [] => none
  | c::s => (decimal c).bind fun d => digits d s

-- int(s), which takes no separator from 28 to 31 for a space.
def int (s : Text) : Except PyError Int :=
  let value := match strip (fun c => isSpace c && !(28 ≤ c.toNat && c.toNat < 32)) s with
    | '-'::s => (natural s).map fun n => -(n : Int)
    | '+'::s => (natural s).map fun n => (n : Int)
    | s => (natural s).map fun n => (n : Int)
  value.elim (.error .valueError) .ok

def months : List (Text × Text) :=
  [(['J','a','n'],['0','1']),(['F','e','b'],['0','2']),(['M','a','r'],['0','3']),(['A','p','r'],['0','4']),
    (['M','a','y'],['0','5']),
    (['J','u','n'],['0','6']),(['J','u','l'],['0','7']),(['A','u','g'],['0','8']),(['S','e','p'],
      ['0','9']),(['O','c','t'],['1','0']),
    (['N','o','v'],['1','1']),(['D','e','c'],['1','2'])]

def isJson (f : Text) : Bool := 5 < f.length && f.drop (f.length - 5) = ['.','j','s','o','n']

def transformMonth (mon : Text) : Text := (months.lookup mon).getD mon

def transformDttm (dttm : Text) : Except PyError Text :=
  let dttm := (strip isSpace dttm).splitOn ' '
  match (dttm.headD []).splitOn '-' with
  | mon::day::year::_ =>
    match dttm with
    | _::time::_ => .ok (['2','0'] ++ year ++ '-'::(transformMonth mon ++ '-'::(day ++ ' '::time)))
    | _ => .error .indexError
  | _ => .error .indexError

def transformDollar (money : Text) : Text := if money.length = 0 then money else money.filter fun c =>
    (decimal c).isSome || c = '.'

-- What a dictionary has under a key that may be missing.
inductive Field where
  | absent | null
  | text (s : Text)
  deriving DecidableEq,Repr

structure User where
  userID : Text
  rating : Text
  location : Field
  country : Field
  deriving DecidableEq,Repr

structure Bid where
  bidder : User
  time : Text
  amount : Text
  deriving DecidableEq,Repr

structure Seller where
  userID : Text
  rating : Text
  deriving DecidableEq,Repr

structure Item where
  itemID : Text
  name : Text
  buyPrice : Field
  firstBid : Text
  description : Field
  seller : Seller
  location : Field
  country : Field
  currently : Text
  numberOfBids : Text
  started : Text
  ends : Text
  category : List Text
  bids : Option (List Bid)
  deriving DecidableEq,Repr

-- "\"" + s.replace('"','""') + "\""
def quote (s : Text) : Text := enclose '"' s

def null : Text := ['N','U','L','L']

def buyPriceField : Field → Except PyError Text
  | .absent => .ok null
  | .null => .error .typeError
  | .text money => .ok (transformDollar money)

def descriptionField : Field → Text
  | .text s => quote s
  | _ => null

-- Location and Country
def placeField : Field → Except PyError Text
  | .absent => .ok null
  | .null => .error .attributeError
  | .text s => .ok (quote s)

def itemRow (item : Item) : Except PyError Text := do
  let buyPrice ← buyPriceField item.buyPrice
  return item.itemID ++ '|'::(quote item.name ++
    '|'::(buyPrice ++ '|'::(transformDollar item.firstBid ++ '|'::(descriptionField item.description ++ ['\n']))))

def auctionRow (item : Item) : Except PyError Text := do
  let started ← transformDttm item.started
  let ends ← transformDttm item.ends
  return item.itemID ++ '|'::(quote item.seller.userID ++
    '|'::(transformDollar item.currently ++ '|'::(item.numberOfBids ++ '|'::(started ++ '|'::(ends ++ ['\n'])))))

def userRow (user : User) : Except PyError Text := do
  let location ← placeField user.location
  let country ← placeField user.country
  return quote user.userID ++ '|'::(user.rating ++ '|'::(location ++ '|'::(country ++ ['\n'])))

-- The only free text that is enclosed as it stands.
def categoryKey (item : Item) (cat : Text) : Text := item.itemID ++ '|'::('"'::(cat ++ ['"']))

def bidRow (item : Item) (bid : Bid) : Except PyError Text := do
  let time ← transformDttm bid.time
  return quote bid.bidder.userID ++ '|'::(item.itemID ++ '|'::(time ++ '|'::(transformDollar bid.amount ++ ['\n'])))

-- Each set of rows with its set of primary keys.
structure Tables where
  items : Table Text Text
  auction : Table Text Text
  users : Table Text Text
  categories : Table Text Text
  bids : Table Text Text
  deriving DecidableEq,Repr

def Tables.empty : Tables := ⟨⟨[],[]⟩,⟨[],[]⟩,⟨[],[]⟩,⟨[],[]⟩,⟨[],[]⟩⟩

def userKey (user : User) : Text := quote user.userID ++ ['|']

def addUser (user : User) (t : Tables) : Except PyError Tables := do
  let users ← t.users.add (userKey user) (userRow user)
  return {t with users := users}

-- The seller of an item is where the item is.
def Item.sellerUser (item : Item) : User := ⟨item.seller.userID,item.seller.rating,item.location,item.country⟩

def addCategories (item : Item) : List Text → Tables → Except PyError Tables
  | [],t => return t
  | cat::cats,t => do
    let categories ← t.categories.add (categoryKey item cat) (.ok (categoryKey item cat ++ ['\n']))
    addCategories item cats {t with categories := categories}

def addBids (item : Item) : List Bid → Tables → Except PyError Tables
  | [],t => return t
  | bid::rest,t => do
    let time ← transformDttm bid.time
    let bids ← t.bids.add (item.itemID ++ '|'::(quote bid.bidder.userID ++ '|'::time)) (bidRow item bid)
    let t ← addUser bid.bidder {t with bids := bids}
    addBids item rest t

def addItem (item : Item) (t : Tables) : Except PyError Tables := do
  let items ← t.items.add (item.itemID ++ ['|']) (itemRow item)
  let auction ← t.auction.add (item.itemID ++ '|'::(quote item.seller.userID ++ ['|'])) (auctionRow item)
  let t ← addUser item.sellerUser {t with items := items,auction := auction}
  let t ← addCategories item item.category t
  let number ← int item.numberOfBids
  if number > 0 then
    match item.bids with
    | none => throw .typeError
    | some bids => addBids item bids t
  else return t

def addItems : List Item → Tables → Except PyError Tables
  | [],t => return t
  | item::items,t => do
    let t ← addItem item t
    addItems items t

def parseJson (itemData : List Item) : Except PyError Tables := addItems itemData .empty

-- The order in which a set gives its elements.
structure SetOrder where
  order : List Text → List Text
  perm : ∀ rows, (order rows).Perm rows

structure Outputs where
  itemsTest : Text
  bidTest : Text
  auctionsTest : Text
  categoriesTest : Text
  userTest : Text

def Outputs.append (sets : SetOrder) (out : Outputs) (t : Tables) : Outputs where
  itemsTest := out.itemsTest ++ (sets.order t.items.rows).flatten
  bidTest := out.bidTest ++ (sets.order t.bids.rows).flatten
  auctionsTest := out.auctionsTest ++ (sets.order t.auction.rows).flatten
  categoriesTest := out.categoriesTest ++ (sets.order t.categories.rows).flatten
  userTest := out.userTest ++ (sets.order t.users.rows).flatten

-- load is what open and loads find in a file under 'Items'. An exception leaves what is written.
def parseFiles (sets : SetOrder) (load : Text → Except PyError (List Item)) : List Text → Outputs →
    Outputs × Option PyError
  | [],out => (out,none)
  | file::rest,out =>
    if isJson file then
      match load file >>= parseJson with
      | .error e => (out,some e)
      | .ok t => parseFiles sets load rest (out.append sets t)
    else parseFiles sets load rest out

def main (sets : SetOrder) (load : Text → Except PyError (List Item)) (argv : List Text) (out : Outputs) :
    Outputs × Option PyError :=
  if argv.length < 2 then (out,some .systemExit) else parseFiles sets load argv.tail out

-- The order of a locale, where sort tells lines that collate alike apart by their bytes.
structure Collation where
  le : Text → Text → Bool
  total : ∀ a b, le a b || le b a
  trans : ∀ a b c, le a b → le b c → le a c
  antisymm : ∀ a b, le a b → le b a → a = b

-- A last line may lack its newline.
def lines : Text → List Text
  | [] => []
  | c::s =>
    if c = '\n' then []::lines s
    else match lines s with
      | [] => [[c]]
      | line::rest => (c::line)::rest

def uniq (file : List Text) : List Text := file.destutter (· ≠ ·)

-- sort file | uniq
def sortUniq (collation : Collation) (file : Text) : List Text := uniq ((lines file).mergeSort collation.le)

-- The lines of the .dat files that the script leaves.
structure Dats where
  auctions : List Text
  bids : List Text
  users : List Text
  items : List Text
  categories : List Text

def runParser (sets : SetOrder) (collation : Collation) (load : Text → Except PyError (List Item)) (argv : List Text) :
    Dats :=
  let out := (main sets load argv ⟨[],[],[],[],[]⟩).1
  ⟨sortUniq collation out.auctionsTest,sortUniq collation out.bidTest,sortUniq collation out.userTest,
    sortUniq collation out.itemsTest,
    sortUniq collation out.categoriesTest⟩

end Minirel.SkeletonParser
