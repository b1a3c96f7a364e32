import Deferred.Decimal.Shortest
import Deferred.Text.CodePoint

/-!
# JSON

The values of the JSON format, and a reader that accepts the texts of the format and no others. A
number is kept as it is written, so that reading rounds nothing off.

* `Json` is a value; `Json.Numeral` is a number.
* `Json.tokens?` splits a text into tokens: marks, strings, and words, which are numerals or names.
* `Json.Reader` is how far a text has been read, with the containers that are still open, and
  `Json.Reader.step?` reads one more token.
* `Json.read?` reads a whole text.
-/

namespace Deferred

/-- A number as it is written. -/
structure Json.Numeral where
  /-- Whether there is a minus sign. -/
  negative : Bool := false
  /-- The digits before and behind the point as one number, and the place of the last one. -/
  decimal : Decimal
  /-- Whether there is neither a point nor an exponent. -/
  isWhole : Bool
  deriving DecidableEq, Repr

/-- A value. -/
inductive Json
  | null
  | bool (value : Bool)
  | number (numeral : Json.Numeral)
  | string (text : String)
  | array (items : List Json)
  /-- The names and values of an object, in the order in which they are written. -/
  | object (members : List (String × Json))

namespace Json

/-! ## Numerals -/

namespace Numeral

/-- The numeral of a natural number. -/
def ofNat (n : Nat) : Numeral := { decimal := ⟨n, 0⟩, isWhole := true }

/-- The number of some digits, of which there has to be one. -/
def digits? (word : List Char) : Option Nat :=
  if word ≠ [] ∧ word.all Char.isDigit then some (Nat.ofDigitChars 10 word 0) else none

/-- Reads the digits before the point: the first of several is not a zero. -/
def whole? (word : List Char) : Option (List Char) := do
  if word.head? = some '0' ∧ word ≠ ['0'] then none
  let _ ← digits? word
  return word

/-- Reads the digits behind the point, if there is one. -/
def fraction? : List Char → Option (List Char)
  | [] => some []
  | '.' :: word => (digits? word).map fun _ => word
  | _ => none

/-- Reads the exponent after its mark, if there is one. -/
def exponent? : List Char → Option Int
  | [] => some 0
  | _ :: '-' :: word => (digits? word).map fun n => -Int.ofNat n
  | _ :: '+' :: word => (digits? word).map Int.ofNat
  | _ :: word => (digits? word).map Int.ofNat

/-- Whether a character does not begin an exponent. -/
def isMantissa (c : Char) : Bool := c != 'e' && c != 'E'

/-- Reads a number without a sign. -/
def unsigned? (word : List Char) : Option Numeral := do
  let mantissa := word.takeWhile isMantissa
  let power := word.dropWhile isMantissa
  let tail := mantissa.dropWhile (· != '.')
  let whole ← whole? (mantissa.takeWhile (· != '.'))
  let fraction ← fraction? tail
  let e ← exponent? power
  return { decimal := ⟨Nat.ofDigitChars 10 (whole ++ fraction) 0, e - fraction.length⟩
           isWhole := tail = [] ∧ power = [] }

/-- Reads a number. -/
def ofWord? : List Char → Option Numeral
  | '-' :: word => (unsigned? word).map fun n => { n with negative := true }
  | word => unsigned? word

end Numeral

/-! ## Strings -/

/-- The character that a backslash and another one stand for. -/
def escape? : Char → Option Char
  | '"' => some '"'
  | '\\' => some '\\'
  | '/' => some '/'
  | 'b' => some '\x08'
  | 'f' => some '\x0c'
  | 'n' => some '\n'
  | 'r' => some '\r'
  | 't' => some '\t'
  | _ => none

/-- The number of four hexadecimal digits. -/
def unit? (a b c d : Char) : Option Nat := do
  let digits ← [a, b, c, d].mapM hexDigit?
  return digits.foldl (fun n digit => 16 * n + digit) 0

/-- The characters of a string, `high` being the first half of one that has been read. -/
def unescape? : Option Nat → List Char → Option (List Char)
  | none, [] => some []
  | none, '\\' :: 'u' :: a :: b :: c :: d :: rest => do
    let unit ← unit? a b c d
    if 0xd800 ≤ unit ∧ unit < 0xdc00 then unescape? (some unit) rest
    else return (← charOf? unit) :: (← unescape? none rest)
  | some high, '\\' :: 'u' :: a :: b :: c :: d :: rest => do
    let low ← unit? a b c d
    if low < 0xdc00 ∨ 0xe000 ≤ low then none
    let c ← charOf? (0x10000 + (high - 0xd800) * 0x400 + (low - 0xdc00))
    return c :: (← unescape? none rest)
  | none, '\\' :: c :: rest => do return (← escape? c) :: (← unescape? none rest)
  | none, c :: rest => (unescape? none rest).map (c :: ·)
  | some _, _ => none

/-! ## Tokens -/

/-- A token of a text. -/
inductive Token
  | openObject
  | closeObject
  | openArray
  | closeArray
  | colon
  | comma
  | text (text : String)
  /-- A number or one of the names. -/
  | value (value : Json)

/-- The value of a word. -/
def ofWord? (word : List Char) : Option Json :=
  if word = ['n', 'u', 'l', 'l'] then some .null
  else if word = ['t', 'r', 'u', 'e'] then some (.bool true)
  else if word = ['f', 'a', 'l', 's', 'e'] then some (.bool false)
  else (Numeral.ofWord? word).map .number

/-- The tokens of a character that is not part of a word; blanks have none. -/
def marks? : Char → Option (List Token)
  | ' ' | '\t' | '\n' | '\r' => some []
  | '{' => some [.openObject]
  | '}' => some [.closeObject]
  | '[' => some [.openArray]
  | ']' => some [.closeArray]
  | ':' => some [.colon]
  | ',' => some [.comma]
  | _ => none

/-- What is being read of a text, as far as it has been read. -/
inductive Scan
  /-- A word, perhaps of no character yet. -/
  | word (read : List Char)
  /-- A string. -/
  | text (read : List Char)
  /-- A string, after a backslash. -/
  | escape (read : List Char)

/-- A word, if there is one, before some tokens. -/
def endWord (word : List Char) (later : List Token) : Option (List Token) :=
  if word = [] then some later else (ofWord? word).map fun v => .value v :: later

/-- The tokens of a text. -/
def tokens? : Scan → List Char → Option (List Token)
  | .word read, [] => endWord read []
  | .text _, [] | .escape _, [] => none
  | .word read, c :: rest =>
    if c = '"' then (tokens? (.text []) rest).bind (endWord read)
    else
      match marks? c with
      | some marks => (tokens? (.word []) rest).bind fun later => endWord read (marks ++ later)
      | none => tokens? (.word (read ++ [c])) rest
  | .text read, c :: rest =>
    if c = '"' then do
      let text ← unescape? none read
      return .text (String.ofList text) :: (← tokens? (.word []) rest)
    else if c = '\\' then tokens? (.escape (read ++ [c])) rest
    else if c < ' ' then none
    else tokens? (.text (read ++ [c])) rest
  | .escape read, c :: rest => tokens? (.text (read ++ [c])) rest

/-! ## Values -/

/-- A container of which a value is being read, with what has been read before. -/
inductive Frame
  | array (items : List Json)
  | object (members : List (String × Json)) (name : String)

/-- How far a text has been read; the innermost of the open containers comes first. -/
inductive Reader
  /-- A value follows. -/
  | value (stack : List Frame)
  /-- An array has been opened: a value or its end follows. -/
  | opened (stack : List Frame)
  /-- An item has been read: a comma or the end of the array follows. -/
  | item (items : List Json) (stack : List Frame)
  /-- An object has been opened: a name or its end follows. -/
  | openedObject (stack : List Frame)
  /-- A name follows. -/
  | nextName (members : List (String × Json)) (stack : List Frame)
  /-- A name has been read: a colon follows. -/
  | colon (members : List (String × Json)) (name : String) (stack : List Frame)
  /-- A member has been read: a comma or the end of the object follows. -/
  | member (members : List (String × Json)) (stack : List Frame)
  /-- The whole value has been read. -/
  | done (value : Json)

namespace Reader

/-- A value has been read. -/
def complete (v : Json) : List Frame → Reader
  | [] => .done v
  | .array items :: stack => .item (items ++ [v]) stack
  | .object members name :: stack => .member (members ++ [(name, v)]) stack

/-- Reads the first token of a value. -/
def begin? (stack : List Frame) : Token → Option Reader
  | .openObject => some (.openedObject stack)
  | .openArray => some (.opened stack)
  | .text text => some (complete (.string text) stack)
  | .value v => some (complete v stack)
  | _ => none

/-- Reads one more token. -/
def step? : Reader → Token → Option Reader
  | .value stack, token => begin? stack token
  | .opened stack, .closeArray => some (complete (.array []) stack)
  | .opened stack, token => begin? (.array [] :: stack) token
  | .item items stack, .comma => some (.value (.array items :: stack))
  | .item items stack, .closeArray => some (complete (.array items) stack)
  | .openedObject stack, .closeObject => some (complete (.object []) stack)
  | .openedObject stack, .text name => some (.colon [] name stack)
  | .nextName members stack, .text name => some (.colon members name stack)
  | .colon members name stack, .colon => some (.value (.object members name :: stack))
  | .member members stack, .comma => some (.nextName members stack)
  | .member members stack, .closeObject => some (complete (.object members) stack)
  | _, _ => none

/-- The value that has been read, if it is complete. -/
def value? : Reader → Option Json
  | .done v => some v
  | _ => none

end Reader

/-- Reads a whole text. -/
def read? (text : String) : Option Json := do
  let tokens ← tokens? (.word []) text.toList
  let reader ← tokens.foldlM Reader.step? (.value [])
  reader.value?

/-- A text with a value of every kind. -/
example : read? " [\x7b\"a\\u00e9\" :-1.50e+3, \"b\": 0\x7d, \"\\ud83d\\ude00\",[ ], true,null]\n" =
    some (.array [
      .object [("aé", .number ⟨true, ⟨150, 1⟩, false⟩), ("b", .number (.ofNat 0))],
      .string "😀", .array [], .bool true, .null]) := rfl

/-- Commas at the end, zeros in front, points without digits and values side by side are refused. -/
example : ∀ text ∈
    ["[1,]", "\x7b\"a\":1,\x7d", "01", "1.", ".5", "1e", "+1", "1 2", "\"\t\"", ""],
    (read? text).isNone := by decide

end Json

end Deferred
