import WallSwitch.Bytes

/-!
This module contains the JSON that records are kept in. It is written without blanks. Reading is
looser: blanks are skipped, and values that nobody asks for are passed over rather than understood.
Strings are taken as they stand, escapes included.
-/

namespace WallSwitch

namespace Json

abbrev Parser (α : Type) := Bytes → Option (α × Bytes)

variable {α : Type}

/-! ### Characters -/

def quote : UInt8 := 0x22

def comma : UInt8 := 0x2C

def colon : UInt8 := 0x3A

def openBracket : UInt8 := 0x5B

def backslash : UInt8 := 0x5C

def closeBracket : UInt8 := 0x5D

def openBrace : UInt8 := 0x7B

def closeBrace : UInt8 := 0x7D

def isBlank (byte : UInt8) : Bool :=
  byte == 0x20 || byte == 0x09 || byte == 0x0A || byte == 0x0D

def isDelimiter (byte : UInt8) : Bool :=
  byte == comma || byte == closeBracket || byte == closeBrace

def skipBlanks (text : Bytes) : Bytes :=
  text.dropWhile isBlank

def expect (byte : UInt8) (text : Bytes) : Option Bytes :=
  match skipBlanks text with
  | [] => none
  | b :: rest => if b = byte then some rest else none

def readAll (parser : Parser α) (text : Bytes) : Option α :=
  match parser text with
  | none => none
  | some (a, rest) => if (skipBlanks rest).isEmpty then some a else none

/-! ### Strings -/

/--
Splits a text at the quote that ends a string. A quote behind an odd number of backslashes does not.
-/
def untilQuote (escaped : Bool) : Parser Bytes
  | [] => none
  | b :: rest =>
    if b = quote ∧ escaped = false then
      some ([], rest)
    else
      (untilQuote (b == backslash && !escaped) rest).map fun (bytes, rest) => (b :: bytes, rest)

/--
Reads a string, which has to be valid UTF-8, without the quotes around it.
-/
def string : Parser Bytes := fun text => do
  let text ← expect quote text
  let (bytes, rest) ← untilQuote false text
  if (Bytes.text? bytes).isSome then some (bytes, rest) else none

/-! ### Arrays and objects -/

/--
Reads the elements of an array and the bracket behind them. A comma announces an element, the first
one too; one element may come without, as long as `fresh` holds.
-/
def elements (element : Parser α) : Nat → Bool → Parser (List α)
  | 0, _, _ => none
  | fuel + 1, fresh, text =>
    match skipBlanks text with
    | [] => none
    | b :: rest =>
      if b = closeBracket then
        some ([], rest)
      else if b = comma then do
        let (a, rest) ← element rest
        let (as, rest) ← elements element fuel fresh rest
        return (a :: as, rest)
      else if fresh then do
        let (a, rest) ← element (b :: rest)
        let (as, rest) ← elements element fuel false rest
        return (a :: as, rest)
      else
        none

/--
Reads an array. Every element uses up a byte, so there are no more of them than bytes.
-/
def array (element : Parser α) : Parser (List α) := fun text => do
  let text ← expect openBracket text
  elements element (text.length + 1) true text

/--
Reads the members of an object and the brace behind them. All but the first come after a comma.
-/
def members (value : Parser α) : Nat → Bool → Parser (List (Bytes × α))
  | 0, _, _ => none
  | fuel + 1, fresh, text =>
    match skipBlanks text with
    | [] => none
    | b :: rest =>
      if b = closeBrace then
        some ([], rest)
      else do
        let text ← if fresh then some (b :: rest) else expect comma (b :: rest)
        let (key, rest) ← string text
        let rest ← expect colon rest
        let (a, rest) ← value rest
        let (more, rest) ← members value fuel false rest
        return ((key, a) :: more, rest)

/--
Reads an object. Every member uses up a byte, so there are no more of them than bytes.
-/
def object (value : Parser α) : Parser (List (Bytes × α)) := fun text => do
  let text ← expect openBrace text
  members value (text.length + 1) true text

/-! ### Values that are passed over -/

/--
Passes over a value that is no string, array or object: all bytes up to the one that ends it.
-/
def skipScalar (text : Bytes) : Option (Unit × Bytes) :=
  match text.dropWhile fun b => !isDelimiter b with
  | [] => none
  | rest => some ((), rest)

def skipNested : Nat → Parser Unit
  | 0 => fun _ => none
  | depth + 1 => fun text =>
    match skipBlanks text with
    | [] => none
    | b :: rest =>
      if b = quote then
        (string (b :: rest)).map fun (_, rest) => ((), rest)
      else if b = openBracket then
        (array (skipNested depth) (b :: rest)).map fun (_, rest) => ((), rest)
      else if b = openBrace then
        (object (skipNested depth) (b :: rest)).map fun (_, rest) => ((), rest)
      else if isDelimiter b then
        none
      else
        skipScalar (b :: rest)

/--
Passes over a value, and gives the bytes that it is written in. It cannot be nested deeper than it
has bytes.
-/
def raw : Parser Bytes := fun text =>
  (skipNested (text.length + 1) text).map fun (_, rest) =>
    (text.take (text.length - rest.length), rest)

/-! ### Scalars -/

/--
Reads a number below `bound`. It ends behind a zero in front.
-/
def natural (bound : Nat) : Parser Nat := fun text =>
  match skipBlanks text with
  | [] => none
  | b :: rest =>
    if b = 0x30 then
      some (0, rest)
    else if Bytes.isDigit b then
      let n := (b :: rest.takeWhile Bytes.isDigit).foldl
        (fun n digit => 10 * n + Bytes.digitValue digit) 0
      if n < bound then some (n, rest.dropWhile Bytes.isDigit) else none
    else
      none

def trueText : Bytes := Bytes.ascii "true"

def falseText : Bytes := Bytes.ascii "false"

def bool : Parser Bool := fun text =>
  let text := skipBlanks text
  if trueText.isPrefixOf text then some (true, text.drop trueText.length)
  else if falseText.isPrefixOf text then some (false, text.drop falseText.length)
  else none

/--
The types of the members of records.
-/
class Scalar (α : Type) where
  print : α → Bytes
  parse : Parser α

instance : Scalar Bool where
  print b := if b then trueText else falseText
  parse := bool

instance : Scalar UInt8 where
  print n := Bytes.decimal n.toNat
  parse text := (natural UInt8.size text).map fun (n, rest) => (UInt8.ofNat n, rest)

instance : Scalar UInt16 where
  print n := Bytes.decimal n.toNat
  parse text := (natural UInt16.size text).map fun (n, rest) => (UInt16.ofNat n, rest)

/-! ### Printing -/

def printSeparated : List Bytes → Bytes
  | [] => []
  | [text] => text
  | text :: more => text ++ comma :: printSeparated more

def printArray [Scalar α] (as : List α) : Bytes :=
  openBracket :: printSeparated (as.map Scalar.print) ++ [closeBracket]

def printMember [Scalar α] (name : String) (a : α) : Bytes :=
  quote :: Bytes.ascii name ++ quote :: colon :: Scalar.print a

def printObject (members : List Bytes) : Bytes :=
  openBrace :: printSeparated members ++ [closeBrace]

/--
The value of the member called `name`, of which there has to be exactly one.
-/
def member? [Scalar α] (name : String) (members : List (Bytes × Bytes)) : Option α :=
  match members.filter fun member => member.1 == Bytes.ascii name with
  | [(_, text)] => readAll Scalar.parse text
  | _ => none

end Json

end WallSwitch
