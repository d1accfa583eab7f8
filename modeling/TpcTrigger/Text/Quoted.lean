import TpcTrigger.Text.Shapeless

/-! # Quoted texts

A text is quoted between double quotes.  Quotes and backslashes inside it, and the usual
blanks other than the space, are escaped with a backslash; any other character without a
shape of its own is shown by its number to base sixteen.
-/

namespace TpcTrigger.Quoted

def hexDigits (n : Nat) : List Char := Nat.toDigits 16 n

def encodeChar (c : Char) : List Char :=
  match c with
  | '"' => ['\\', '"']
  | '\\' => ['\\', '\\']
  | '\n' => ['\\', 'n']
  | '\r' => ['\\', 'r']
  | '\t' => ['\\', 't']
  | '\x00' => ['\\', '0']
  | c => if isShapeless c then ['\\', 'u', '\x7b'] ++ hexDigits c.toNat ++ ['\x7d'] else [c]

def encode (s : String) : String :=
  String.ofList ('"' :: (s.toList.flatMap encodeChar ++ ['"']))

end TpcTrigger.Quoted
