import WineCellar.Library.Text

/-!
# Wines, bottles and their JSON

The data classes of `wine_model.dart`, `wine_bottle.dart`, `purchase_record.dart`
and `storage_model.dart`. JSON values are a tree; `jsonEncode` is defined here,
`jsonDecode` and `double.tryParse` are parameters.
-/

namespace WineCellar.Database

open Library

/-- A double, by the text `toString` prints for it. -/
structure Double where
  text : String
  deriving DecidableEq, Repr

def Double.isNaN (d : Double) : Bool := d.text = "NaN"

/-- `-0.0` as the `0.0` it is equal to. -/
def Double.unsigned (d : Double) : Double := if d.text = "-0.0" then ⟨"0.0"⟩ else d

def Double.isFinite (d : Double) : Bool :=
  !(d.text = "NaN" || d.text = "Infinity" || d.text = "-Infinity")

inductive Json where
  | null
  | bool (b : Bool)
  | int (n : ℤ)
  | double (d : Double)
  | string (s : String)
  | list (items : List Json)
  | object (fields : List (String × Json))

/-- A character inside a JSON string literal. -/
def encodeChar (c : Char) : List Char :=
  let hex (n : ℕ) : Char := if n < 10 then Char.ofNat (48 + n) else Char.ofNat (87 + n)
  match c.toNat with
  | 8 => ['\\', 'b']
  | 9 => ['\\', 't']
  | 10 => ['\\', 'n']
  | 12 => ['\\', 'f']
  | 13 => ['\\', 'r']
  | 34 => ['\\', '"']
  | 92 => ['\\', '\\']
  | n => if n < 32 then ['\\', 'u', '0', '0', hex (n / 16), hex (n % 16)] else [c]

def encodeString (s : String) : String :=
  String.ofList ('"' :: s.toList.flatMap encodeChar ++ ['"'])

mutual

/-- `jsonEncode`; a double that is not finite makes it throw. -/
def jsonEncode : Json → Option String
  | .null => some "null"
  | .bool b => some (if b then "true" else "false")
  | .int n => some (toString n)
  | .double d => if d.isFinite then some d.text else none
  | .string s => some (encodeString s)
  | .list items => (encodeItems items).map fun ss => "[" ++ join "," ss ++ "]"
  | .object fields => (encodeFields fields).map fun ss => "\x7b" ++ join "," ss ++ "\x7d"

def encodeItems : List Json → Option (List String)
  | [] => some []
  | j :: js => (jsonEncode j).bind fun s => (encodeItems js).map (s :: ·)

def encodeFields : List (String × Json) → Option (List String)
  | [] => some []
  | (k, j) :: fs =>
    (jsonEncode j).bind fun s =>
      (encodeFields fs).map fun ss => (encodeString k ++ ":" ++ s) :: ss

end

mutual

/-- `toString` of a decoded value. -/
def toText : Json → String
  | .null => "null"
  | .bool b => if b then "true" else "false"
  | .int n => toString n
  | .double d => d.text
  | .string s => s
  | .list items => "[" ++ join ", " (itemTexts items) ++ "]"
  | .object fields => "\x7b" ++ join ", " (fieldTexts fields) ++ "\x7d"

def itemTexts : List Json → List String
  | [] => []
  | j :: js => toText j :: itemTexts js

def fieldTexts : List (String × Json) → List String
  | [] => []
  | (k, j) :: fs => (k ++ ": " ++ toText j) :: fieldTexts fs

end

/-- The decoding functions of `dart:convert` and `dart:core`; `none` is a throw
of `jsonDecode`, null of `double.tryParse`. -/
structure Decoder where
  jsonDecode : String → Option Json
  doubleTryParse : String → Option Double

/-! ## Wines -/

structure WinePrice where
  merchant : Option String
  price : Double
  currency : String
  url : Option String
  deriving DecidableEq, Repr

structure WineScore where
  score : Option Double
  scoreText : Option String
  reviewer : String
  reviewDate : Option String
  deriving DecidableEq, Repr

structure WineBottle where
  id : String
  wineId : String
  bottleSize : String
  quantity : ℤ
  deriving DecidableEq, Repr

structure WineModel where
  id : String
  name : String
  vintage : Option ℤ := none
  type : Option String := none
  winery : Option String := none
  region : Option String := none
  country : Option String := none
  averageRating : Option Double := none
  ratingsCount : Option ℤ := none
  description : Option String := none
  alcoholContent : Option String := none
  prices : Option (List WinePrice) := none
  foodPairings : Option (List String) := none
  grapes : Option (List String) := none
  scores : Option (List WineScore) := none
  quantity : ℤ := 1
  cellarLocation : Option String := none
  notice : Option String := none
  bottles : Option (List WineBottle) := none
  rawPairingsJson : Option String := none
  rawScoresJson : Option String := none
  deriving DecidableEq, Repr

def jsonOr {α : Type*} (f : α → Json) : Option α → Json
  | none => .null
  | some a => f a

def WinePrice.toJson (p : WinePrice) : Json :=
  .object [("merchantName", jsonOr .string p.merchant), ("price", .double p.price),
    ("currency", .string p.currency), ("url", jsonOr .string p.url)]

def WineScore.toJson (s : WineScore) : Json :=
  .object [("score", jsonOr .double s.score), ("scoreText", jsonOr .string s.scoreText),
    ("reviewer", .string s.reviewer), ("reviewDate", jsonOr .string s.reviewDate)]

/-! ## `fromJson` -/

/-- `json[key]` of a decoded object; a missing key is null. -/
def field (fields : List (String × Json)) (key : String) : Json :=
  (fields.lookup key).getD .null

/-- `value?.toString()`. -/
def textOrNull : Json → Option String
  | .null => none
  | j => some (toText j)

def parseStringOrMap : Json → Option String
  | .null => none
  | .object fields => textOrNull (field fields "name")
  | j => some (toText j)

/-- `int.tryParse` of the text; the text of an integer parses back to it. -/
def parseInt : Json → Option ℤ
  | .int n => some n
  | j => (textOrNull j).bind intTryParse

section
variable (dec : Decoder)

def parseDouble (j : Json) : Option Double := (textOrNull j).bind dec.doubleTryParse

/-- An element that is not an object makes `Map.from` throw. -/
def WinePrice.fromJson : Json → Option WinePrice
  | .object fields => some
    { merchant := textOrNull (field fields "merchantName")
      price := (dec.doubleTryParse (toText (field fields "price"))).getD ⟨"0.0"⟩
      currency := (textOrNull (field fields "currency")).getD "USD"
      url := textOrNull (field fields "url") }
  | _ => none

def WineScore.fromJson : Json → Option WineScore
  | .object fields => some
    { score := parseDouble dec (field fields "score")
      scoreText := textOrNull (field fields "scoreText")
      reviewer := (textOrNull (field fields "reviewer")).getD ""
      reviewDate := textOrNull (field fields "reviewDate") }
  | _ => none

/-- A list is parsed element by element, anything else is null. -/
def parseList {α : Type} (parse : Json → Option α) : Json → Option (Option (List α))
  | .list items => (items.mapM parse).map some
  | _ => some none

def nameOf (key : String) : Json → String
  | .object fields => (textOrNull (field fields key)).getD ""
  | j => toText j

def parseNames (key : String) : Json → Option (List String)
  | .list items => some ((items.map (nameOf key)).filter (· ≠ ""))
  | _ => none

/-- `WineModel.fromJson` at time `now`; `none` when an element of `prices` or
`scores` makes it throw. -/
def WineModel.fromJson (now : ℕ) (json : List (String × Json)) : Option WineModel := do
  let data := match field json "wine" with
    | .object fields => fields
    | _ => json
  let prices ← parseList (WinePrice.fromJson dec) (field data "prices")
  let scores ← parseList (WineScore.fromJson dec) (field data "scores")
  return {
    id := ((textOrNull (field data "id")).filter (· ≠ "")).getD (toString now)
    name := (textOrNull (field data "name")).getD "Unknown Wine"
    vintage := parseInt (field data "vintage")
    type := textOrNull (field data "type")
    winery := parseStringOrMap (field data "winery")
    region := parseStringOrMap (field data "region")
    country := (textOrNull (field data "country")).orElse fun _ =>
      match field data "region" with
      | .object fields => textOrNull (field fields "country")
      | _ => none
    averageRating := parseDouble dec (field data "averageRating")
    ratingsCount := parseInt (field data "ratingsCount")
    description := textOrNull (field data "description")
    alcoholContent := textOrNull (field data "alcoholContent")
    prices := prices
    foodPairings := parseNames "food" (field data "pairings")
    grapes := parseNames "name" (field data "grapes")
    scores := scores
    quantity := (parseInt (field data "quantity")).getD 1
    cellarLocation := textOrNull (field data "cellarLocation")
    notice := textOrNull (field data "notice") }

end

/-! ## Purchases and storage -/

/-- `purchasedAt` in milliseconds since the epoch. -/
structure PurchaseRecord where
  id : String
  wineId : String
  bottleSize : Option String
  quantity : ℤ
  price : Double
  currency : String
  purchasedAt : ℤ
  shopName : Option String
  deriving DecidableEq, Repr

structure BottlePositionModel where
  id : String
  index : ℤ
  wineId : Option String
  bottleSize : Option String
  deriving DecidableEq, Repr

structure ShelfModel where
  id : String
  name : String
  positions : List BottlePositionModel
  deriving DecidableEq, Repr

structure CabinetModel where
  id : String
  name : String
  shelves : List ShelfModel
  deriving DecidableEq, Repr

end WineCellar.Database
