import Mcs8.Document

/-!
# Parsed documents

JSON text is read in two passes: the characters are grouped into tokens, and the tokens into a
document. Both passes take from the front of what is left. Numbers are integers; the text of one
document has to fill the whole input but for blanks.
-/

namespace Mcs8

namespace Document

/-- A word of the text of a document. -/
inductive Token where
  | openBrace
  | closeBrace
  | openBracket
  | closeBracket
  | colon
  | comma
  | null
  | bool (value : Bool)
  | number (value : Int)
  | text (value : String)

/-! ### Tokens -/

/-- The blanks between tokens. -/
def isBlank (c : Char) : Bool := c == ' ' || c == '\t' || c == '\n' || c == '\r'

/-- The value of a hexadecimal digit. -/
def hexValue? (c : Char) : Option Nat :=
  if '0' ≤ c && c ≤ '9' then some (c.toNat - 48)
  else if 'a' ≤ c && c ≤ 'f' then some (c.toNat - 87)
  else if 'A' ≤ c && c ≤ 'F' then some (c.toNat - 55)
  else none

/-- The value of four hexadecimal digits. -/
def unit? (a b c d : Char) : Option Nat := do
  return ((← hexValue? a) * 16 + (← hexValue? b)) * 256 + ((← hexValue? c) * 16 + (← hexValue? d))

/-- The character for the letter of a short escape. -/
def escaped? : Char → Option Char
  | '"' => some '"'
  | '\\' => some '\\'
  | '/' => some '/'
  | 'b' => some '\x08'
  | 'f' => some '\x0c'
  | 'n' => some '\n'
  | 'r' => some '\r'
  | 't' => some '\t'
  | _ => none

/-- Read the rest of a quoted text, after the characters `read`, the last one first. A numbered
escape gives its character, or with the one that follows the character of a surrogate pair. -/
def textRest (read : List Char) : List Char → Option (String × List Char)
  | '"' :: rest => some (.ofList read.reverse, rest)
  | '\\' :: 'u' :: a :: b :: c :: d :: rest =>
    match unit? a b c d with
    | none => none
    | some u =>
      if u < 0xd800 || 0xdfff < u then textRest (.ofNat u :: read) rest
      else if 0xdbff < u then none
      else
        match rest with
        | '\\' :: 'u' :: a :: b :: c :: d :: rest =>
          match unit? a b c d with
          | none => none
          | some v =>
            if v < 0xdc00 || 0xdfff < v then none
            else textRest (.ofNat (0x10000 + (u - 0xd800) * 0x400 + (v - 0xdc00)) :: read) rest
        | _ => none
  | '\\' :: c :: rest =>
    match escaped? c with
    | some e => textRest (e :: read) rest
    | none => none
  | c :: rest => if c.toNat < 0x20 || c == '\\' then none else textRest (c :: read) rest
  | [] => none

/-- The value of a run of digits. -/
def digitsValue (digits : List Char) : Nat :=
  digits.foldl (fun n c ↦ n * 10 + (c.toNat - 48)) 0

/-- Read the digits of a number; one that begins with a zero ends with it. -/
def digits? (cs : List Char) : Option (Nat × List Char) :=
  match cs.takeWhile Char.isDigit with
  | [] => none
  | '0' :: _ :: _ => none
  | digits => some (digitsValue digits, cs.dropWhile Char.isDigit)

/-- Read one token from text that begins with no blank. -/
def token? : List Char → Option (Token × List Char)
  | '\x7b' :: rest => some (.openBrace, rest)
  | '\x7d' :: rest => some (.closeBrace, rest)
  | '[' :: rest => some (.openBracket, rest)
  | ']' :: rest => some (.closeBracket, rest)
  | ':' :: rest => some (.colon, rest)
  | ',' :: rest => some (.comma, rest)
  | 'n' :: 'u' :: 'l' :: 'l' :: rest => some (.null, rest)
  | 't' :: 'r' :: 'u' :: 'e' :: rest => some (.bool true, rest)
  | 'f' :: 'a' :: 'l' :: 's' :: 'e' :: rest => some (.bool false, rest)
  | '"' :: rest => (textRest [] rest).map fun (s, rest) ↦ (.text s, rest)
  | '-' :: rest => (digits? rest).map fun (n, rest) ↦ (.number (-n), rest)
  | cs => (digits? cs).map fun (n, rest) ↦ (.number n, rest)

/-- Read tokens up to the end of the text, after the tokens `read`, the last one first. Each token
takes a character at least, so that `fuel` above the number of characters is enough. -/
def tokensFrom (read : List Token) : (fuel : Nat) → List Char → Option (List Token)
  | 0, _ => none
  | fuel + 1, cs =>
    match cs.dropWhile isBlank with
    | [] => some read.reverse
    | cs =>
      match token? cs with
      | some (t, rest) => tokensFrom (t :: read) fuel rest
      | none => none

/-- The tokens of a text. -/
def tokens? (s : String) : Option (List Token) := tokensFrom [] (s.length + 1) s.toList

/-! ### Documents -/

mutual

/-- Read one document. Each call takes a token or ends, so that `fuel` above twice the number of
tokens is enough. -/
def documentFrom : (fuel : Nat) → List Token → Option (Document × List Token)
  | 0, _ => none
  | fuel + 1, tokens =>
    match tokens with
    | .null :: rest => some (.null, rest)
    | .bool b :: rest => some (.bool b, rest)
    | .number n :: rest => some (.number n, rest)
    | .text s :: rest => some (.text s, rest)
    | .openBracket :: .closeBracket :: rest => some (.list [], rest)
    | .openBracket :: rest => itemsFrom [] fuel rest
    | .openBrace :: .closeBrace :: rest => some (ofFields [], rest)
    | .openBrace :: rest => fieldsFrom [] fuel rest
    | _ => none

/-- Read the items of a list up to its end, after the items `read`, the last one first. -/
def itemsFrom (read : List Document) : (fuel : Nat) → List Token → Option (Document × List Token)
  | 0, _ => none
  | fuel + 1, tokens =>
    match documentFrom fuel tokens with
    | some (d, .comma :: rest) => itemsFrom (d :: read) fuel rest
    | some (d, .closeBracket :: rest) => some (.list (d :: read).reverse, rest)
    | _ => none

/-- Read the fields of an object up to its end, after the fields `read`, the last one first. -/
def fieldsFrom (read : List (String × Document)) :
    (fuel : Nat) → List Token → Option (Document × List Token)
  | 0, _ => none
  | fuel + 1, tokens =>
    match tokens with
    | .text key :: .colon :: rest =>
      match documentFrom fuel rest with
      | some (d, .comma :: rest) => fieldsFrom ((key, d) :: read) fuel rest
      | some (d, .closeBrace :: rest) => some (ofFields ((key, d) :: read).reverse, rest)
      | _ => none
    | _ => none

end

/-- The document that a text holds. -/
def parse (s : String) : Except Fault Document :=
  match tokens? s with
  | none => .error .unreadable
  | some tokens =>
    match documentFrom (2 * tokens.length + 1) tokens with
    | some (d, []) => .ok d
    | _ => .error .unreadable

end Document

end Mcs8
