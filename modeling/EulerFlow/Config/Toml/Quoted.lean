/-!
Each reader takes what it names off the front of a text and gives the rest, or nothing if the
text does not begin with it.
-/

namespace EulerFlow.Config.Toml

/-- Controls other than the tab may not stand in strings and comments. -/
def isPlain (c : Char) : Bool :=
  c = '\t' || (' ' ≤ c && c ≠ '\x7f')

/-- A line end: a line feed, with or without a carriage return before it. -/
def lineEnd? : List Char → Option (List Char)
  | '\n' :: cs => some cs
  | '\r' :: '\n' :: cs => some cs
  | _ => none

/-- The value of a hexadecimal digit, in either case. -/
def hexDigit? (c : Char) : Option Nat :=
  if c.isDigit then some (c.toNat - '0'.toNat)
  else if 'a' ≤ c ∧ c ≤ 'f' then some (c.toNat - 'a'.toNat + 10)
  else if 'A' ≤ c ∧ c ≤ 'F' then some (c.toNat - 'A'.toNat + 10)
  else none

/-- The character with the code point that the hexadecimal digits give. -/
def scalar? (digits : List Char) : Option Char := do
  let code ← digits.foldlM (fun n c => (hexDigit? c).map (16 * n + ·)) 0
  if code.isValidChar then some (Char.ofNat code) else none

/-- The character behind a backslash. -/
def escape? : List Char → Option (Char × List Char)
  | 'b' :: cs => some ('\x08', cs)
  | 't' :: cs => some ('\t', cs)
  | 'n' :: cs => some ('\n', cs)
  | 'f' :: cs => some ('\x0c', cs)
  | 'r' :: cs => some ('\r', cs)
  | 'e' :: cs => some ('\x1b', cs)
  | '"' :: cs => some ('"', cs)
  | '\\' :: cs => some ('\\', cs)
  | 'x' :: a :: b :: cs => (scalar? [a, b]).map (·, cs)
  | 'u' :: a :: b :: c :: d :: cs => (scalar? [a, b, c, d]).map (·, cs)
  | 'U' :: a :: b :: c :: d :: e :: f :: g :: h :: cs => (scalar? [a, b, c, d, e, f, g, h]).map (·, cs)
  | _ => none

/-- A basic string behind its opening quote. Each character takes one unit of fuel. -/
def basic? : (fuel : Nat) → List Char → Option (List Char × List Char)
  | fuel + 1, '\\' :: cs => do
    let (c, cs) ← escape? cs
    let (tail, cs) ← basic? fuel cs
    return (c :: tail, cs)
  | _ + 1, '"' :: cs => some ([], cs)
  | fuel + 1, c :: cs =>
    if isPlain c then (basic? fuel cs).map fun (tail, cs) => (c :: tail, cs) else none
  | _, _ => none

/-- A literal string behind its opening quote. -/
def literal? : List Char → Option (List Char × List Char)
  | [] => none
  | c :: cs =>
    if c = '\'' then some ([], cs)
    else if isPlain c then (literal? cs).map fun (tail, cs) => (c :: tail, cs)
    else none

/-- The text behind its leading spaces, tabs and line ends. -/
def dropBlankLines : List Char → List Char
  | ' ' :: cs | '\t' :: cs | '\n' :: cs | '\r' :: '\n' :: cs => dropBlankLines cs
  | cs => cs

/-- The rest of a text behind a backslash that ends a line: the blanks before the line end,
and all blanks and line ends after it, are skipped. -/
def lineContinuation? (cs : List Char) : Option (List Char) :=
  (lineEnd? (cs.dropWhile fun c => c = ' ' || c = '\t')).map dropBlankLines

/-- A string of several lines behind its three opening quotes. Up to two quotes may
stand before the three that close it. Line ends are kept as they are. -/
def multiline? (quote : Char) : (fuel : Nat) → List Char → Option (List Char × List Char)
  | 0, _ => none
  | fuel + 1, cs =>
    let quotes := (cs.takeWhile (· = quote)).length
    if 3 ≤ quotes then
      if quotes ≤ 5 then some (List.replicate (quotes - 3) quote, cs.drop quotes) else none
    else
      match cs with
      | [] => none
      | '\r' :: '\n' :: rest =>
        (multiline? quote fuel rest).map fun (tail, cs) => ('\r' :: '\n' :: tail, cs)
      | c :: rest =>
        if c = '\\' ∧ quote = '"' then
          match lineContinuation? rest with
          | some rest => multiline? quote fuel rest
          | none => do
            let (c, rest) ← escape? rest
            let (tail, cs) ← multiline? quote fuel rest
            return (c :: tail, cs)
        else if c = '\n' ∨ isPlain c then (multiline? quote fuel rest).map fun (tail, cs) => (c :: tail, cs)
        else none

/-- A line end right behind the opening quotes does not belong to the string. -/
def dropLineEnd (cs : List Char) : List Char :=
  (lineEnd? cs).getD cs

/-- A string in quotes of any kind. -/
def quoted? : List Char → Option (String × List Char)
  | '"' :: '"' :: '"' :: cs =>
    (multiline? '"' (cs.length + 1) (dropLineEnd cs)).map fun (s, cs) => (String.ofList s, cs)
  | '\'' :: '\'' :: '\'' :: cs =>
    (multiline? '\'' (cs.length + 1) (dropLineEnd cs)).map fun (s, cs) => (String.ofList s, cs)
  | '"' :: cs => (basic? (cs.length + 1) cs).map fun (s, cs) => (String.ofList s, cs)
  | '\'' :: cs => (literal? cs).map fun (s, cs) => (String.ofList s, cs)
  | _ => none

end EulerFlow.Config.Toml
