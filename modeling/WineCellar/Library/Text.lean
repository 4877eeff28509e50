import Mathlib.Data.List.Sort
import Mathlib.Tactic

/-!
# Text operations of Dart's `String` and `int`

On lists of characters first, where they are structurally recursive, then on
strings. Patterns are non-empty.
-/

namespace WineCellar.Library

/-- The characters `trim` removes: Unicode `White_Space` and the byte order mark. -/
def isBlank (c : Char) : Bool :=
  let n := c.toNat
  (9 ≤ n && n ≤ 13) || n == 0x20 || n == 0x85 || n == 0xA0 || n == 0x1680 ||
    (0x2000 ≤ n && n ≤ 0x200A) || n == 0x2028 || n == 0x2029 || n == 0x202F || n == 0x205F ||
    n == 0x3000 || n == 0xFEFF

def trimChars (cs : List Char) : List Char :=
  ((cs.dropWhile isBlank).reverse.dropWhile isBlank).reverse

/-- Split at the occurrences of `sep` from left to right; `skip` characters of an
occurrence are still to be passed, `part` is the current part, reversed. -/
def splitFrom (sep : List Char) : ℕ → List Char → List Char → List (List Char)
  | _, part, [] => [part.reverse]
  | skip + 1, part, _ :: cs => splitFrom sep skip part cs
  | 0, part, c :: cs =>
    if sep.isPrefixOf (c :: cs) then part.reverse :: splitFrom sep (sep.length - 1) [] cs
    else splitFrom sep 0 (c :: part) cs

def containsChars (sep : List Char) : List Char → Bool
  | [] => sep.isEmpty
  | c :: cs => sep.isPrefixOf (c :: cs) || containsChars sep cs

def replaceFirstChars (sep new : List Char) : List Char → List Char
  | [] => []
  | c :: cs =>
    if sep.isPrefixOf (c :: cs) then new ++ (c :: cs).drop sep.length
    else c :: replaceFirstChars sep new cs

def trim (s : String) : String := String.ofList (trimChars s.toList)

def split (sep s : String) : List String :=
  (splitFrom sep.toList 0 [] s.toList).map String.ofList

def contains (sep s : String) : Bool := containsChars sep.toList s.toList

def startsWith (sep s : String) : Bool := sep.toList.isPrefixOf s.toList

def replaceFirst (sep new s : String) : String :=
  String.ofList (replaceFirstChars sep.toList new.toList s.toList)

def join (sep : String) : List String → String
  | [] => ""
  | [s] => s
  | s :: ss => s ++ sep ++ join sep ss

/-- The value of a digit in the given base. -/
def digitValue (base : ℕ) (c : Char) : Option ℕ :=
  let n := c.toNat
  let v := if 48 ≤ n ∧ n ≤ 57 then some (n - 48)
    else if 97 ≤ n ∧ n ≤ 102 then some (n - 87)
    else if 65 ≤ n ∧ n ≤ 70 then some (n - 55) else none
  v.filter (· < base)

def digitsValue (base : ℕ) : ℕ → List Char → Option ℕ
  | value, [] => some value
  | value, c :: cs => (digitValue base c).bind fun d => digitsValue base (value * base + d) cs

/-- Non-empty digits, within the 64-bit integers; an unsigned hexadecimal literal
may use all 64 bits. -/
def magnitude (negative : Bool) : List Char → Option ℤ
  | [] => none
  | '0' :: 'x' :: c :: cs | '0' :: 'X' :: c :: cs =>
    (digitsValue 16 0 (c :: cs)).bind fun n =>
      if negative then if n ≤ 2 ^ 63 then some (-n) else none
      else if n < 2 ^ 63 then some n else if n < 2 ^ 64 then some (n - 2 ^ 64) else none
  | c :: cs =>
    (digitsValue 10 0 (c :: cs)).bind fun n =>
      if negative then if n ≤ 2 ^ 63 then some (-n) else none
      else if n < 2 ^ 63 then some n else none

/-- `int.tryParse`: surrounding blanks are ignored, a sign is allowed. -/
def intTryParse (s : String) : Option ℤ :=
  match trimChars s.toList with
  | '-' :: cs => magnitude true cs
  | '+' :: cs => magnitude false cs
  | cs => magnitude false cs

/-- The UTF-16 code units of a string, which `compareTo` compares. -/
def codeUnits (s : String) : List ℕ :=
  s.toList.flatMap fun c =>
    if c.toNat < 0x10000 then [c.toNat]
    else [0xD800 + (c.toNat - 0x10000) / 0x400, 0xDC00 + (c.toNat - 0x10000) % 0x400]

/-- `List<String>.sort`. -/
def sortStrings (ss : List String) : List String :=
  ss.insertionSort fun a b => codeUnits a ≤ codeUnits b

end WineCellar.Library
